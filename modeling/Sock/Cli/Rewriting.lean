/-
  What the rewriting of a vLLM subcommand's arguments keeps (app/src/main.rs).

  * `plainArgs`: the arguments that are no layout options; `scan_eq_plainArgs`: what the scan
    passes through.
  * `buildVllmSubcommandArgs_split`: the layout pair and the hot budget pair are spliced into
    these, at places that depend on the subcommand.
  * `rewriting_faithful_iff`: one `--kv-layout` with the layout of the last option, the other
    arguments in their order; and a `--kv-layout=` is left exactly where an argument that is no
    text begins with it.
-/
import Sock.Cli.KvLayoutArgs

namespace Sock.Cli

open Lib Sock.Core

/-! ## What passes through -/

/-- The arguments that are no layout options, in order. -/
def plainArgs : List OsString → List OsString
  | [] => []
  | arg :: rest =>
      match token arg with
      | .layoutFlag =>
          match rest with
          | [] => []
          | _ :: rest => plainArgs rest
      | .layoutValue _ => plainArgs rest
      | .removedPolicy | .other => arg :: plainArgs rest

theorem scan_eq_plainArgs {args passthrough out : List OsString} {policy p : KvLayoutPolicy}
    (h : scan args policy passthrough = .ok (p, out)) : out = passthrough ++ plainArgs args := by
  fun_induction scan args policy passthrough with
  | case1 policy passthrough =>
      cases h
      rw [plainArgs, List.append_nil]
  | case2 | case3 | case4 | case6 => cases h
  | case5 flag policy passthrough htoken value rest policy' hvalue ih =>
      rw [plainArgs.eq_def]
      simp only [htoken]
      exact ih h
  | case7 arg rest policy passthrough value htoken policy' hvalue ih =>
      rw [plainArgs.eq_def]
      simp only [htoken]
      exact ih h
  | case8 arg rest policy passthrough htoken ih =>
      rw [plainArgs.eq_def]
      simp only [htoken]
      rw [ih h, List.append_assoc]
      rfl

theorem mem_of_mem_plainArgs {args : List OsString} {arg : OsString} (h : arg ∈ plainArgs args) :
    arg ∈ args := by
  fun_induction plainArgs args <;> grind

theorem token_of_toStr_none {arg : OsString} (h : arg.toStr = none) : token arg = .other := by
  rw [token, h]

/-- An argument that is no text is passed through: it is no option, and no option has it as its
    value. -/
theorem mem_plainArgs_of_toStr_none {args passthrough out : List OsString}
    {policy p : KvLayoutPolicy} (h : scan args policy passthrough = .ok (p, out)) {arg : OsString}
    (hmem : arg ∈ args) (hnone : arg.toStr = none) : arg ∈ plainArgs args := by
  have hother := token_of_toStr_none hnone
  fun_induction scan args policy passthrough with
  | case1 => cases hmem
  | case2 | case3 | case4 | case6 => cases h
  | case5 flag policy passthrough htoken value rest policy' hvalue ih =>
      rw [plainArgs.eq_def]
      simp only [htoken]
      have hflag : arg ≠ flag := by
        rintro rfl
        rw [hother] at htoken
        cases htoken
      have hne : arg ≠ value := by
        rintro rfl
        rw [kvLayoutPolicyFromOsValue, hnone] at hvalue
        cases hvalue
      exact ih h (by simpa [hflag, hne] using hmem)
  | case7 joined rest policy passthrough value htoken policy' hvalue ih =>
      rw [plainArgs.eq_def]
      simp only [htoken]
      have hne : arg ≠ joined := by
        rintro rfl
        rw [hother] at htoken
        cases htoken
      exact ih h (by simpa [hne] using hmem)
  | case8 first rest policy passthrough htoken ih =>
      rw [plainArgs.eq_def]
      simp only [htoken]
      rcases List.mem_cons.mp hmem with rfl | hmem
      · exact List.mem_cons_self
      · exact List.mem_cons_of_mem _ (ih h hmem)

/-- What resolution returns: the policy of the last layout option, and the other arguments. -/
theorem resolveSockKvLayoutArgs_spec {args : List OsString} {resolved : ResolvedSockKvLayoutArgs}
    (h : resolveSockKvLayoutArgs args = .ok resolved) :
    ∃ p, scan args .standard [] = .ok (p, resolved.args) ∧
      Names (layoutValues args) .standard resolved.policy ∧ resolved.args = plainArgs args := by
  unfold resolveSockKvLayoutArgs at h
  split at h
  case h_1 => cases h
  case h_2 policy passthrough hscan =>
    cases h
    have hnames := (scan_spec hscan).1
    refine ⟨policy, hscan, ?_, scan_eq_plainArgs hscan⟩
    have hcanonical : policy.canonicalize = policy := by
      unfold Names at hnames
      split at hnames
      · rw [hnames]
        rfl
      · rcases kvLayoutPolicyFromOsValue_ok hnames with ⟨rfl, -⟩ | ⟨rfl | rfl, -⟩ <;> rfl
    rw [hcanonical]
    exact hnames

/-! ## The splice -/

/-- The two pairs stand between the arguments that are passed through. -/
theorem buildVllmSubcommandArgs_split (name : VllmSubcommand)
    (resolved : ResolvedSockKvLayoutArgs) : ∃ before between after,
      buildVllmSubcommandArgs name resolved = .text name.name ::
        (before ++ layoutArgs resolved.policy ++ between ++ hotBudgetArgs resolved.policy ++
          after) ∧
      before ++ between ++ after = resolved.args := by
  unfold buildVllmSubcommandArgs
  split
  case h_1 first rest hargs =>
    rw [hargs]
    split
    · exact ⟨[], [first], rest, by simp, rfl⟩
    · exact ⟨[first], [], rest, by simp, rfl⟩
  case h_2 => exact ⟨[], [], resolved.args, by simp, rfl⟩

/-! ## Options that are left -/

/-- The bytes of the argument begin with those of the text. -/
def beginsWith (p : String) : OsString → Bool
  | .text s => startsWith p s
  | .other raw _ => p.toByteArray.data.toList.isPrefixOf raw.data.toList

/-- The scan takes every text that begins so for an option. -/
theorem not_beginsWith_of_token {arg : OsString} (h : token arg = .other)
    (htext : arg.toStr ≠ none) : beginsWith "--kv-layout=" arg = false := by
  cases arg with
  | other raw hraw => exact absurd rfl htext
  | text s =>
      by_contra hbegins
      have hstarts : startsWith "--kv-layout=" s = true := by simpa [beginsWith] using hbegins
      simp only [token, Bytes.toStr, stripPrefix, hstarts, if_true] at h
      split at h
      · cases h
      · split at h <;> cases h

/-- The arguments that are put in. -/
def injectedArgs (name : VllmSubcommand) (policy : KvLayoutPolicy) : List OsString :=
  .text name.name :: (layoutArgs policy ++ hotBudgetArgs policy)

/-- For the policies that an option can name, these have one `--kv-layout` and no
    `--kv-layout=`. -/
theorem injectedArgs_spec (name : VllmSubcommand) {policy : KvLayoutPolicy}
    (h : policy = .standard ∨ policy = .tmhAccounting ∨ policy = .tmhPhysical) :
    (injectedArgs name policy).count kvLayoutFlag = 1 ∧
      ∀ arg ∈ injectedArgs name policy, beginsWith "--kv-layout=" arg = false := by
  rcases h with rfl | rfl | rfl <;> cases name <;> decide +kernel

/-- **The rewritten arguments.** For every subcommand and every argument list that is resolved:
    there is one `--kv-layout`, followed by the layout that the last layout option names (the
    standard one without an option); without the name of the subcommand and the two pairs, the
    arguments that are no layout options are left, in their order. No argument begins with
    `--kv-layout=` exactly when no argument that is no text does. -/
theorem rewriting_faithful_iff (name : VllmSubcommand) {args : List OsString}
    {resolved : ResolvedSockKvLayoutArgs} (h : resolveSockKvLayoutArgs args = .ok resolved) :
    (∃ policy before between after, Names (layoutValues args) .standard policy ∧
      buildVllmSubcommandArgs name resolved = .text name.name ::
        (before ++ [kvLayoutFlag, .text policy.layout.asStr] ++ between ++ hotBudgetArgs policy ++
          after) ∧
      before ++ between ++ after = plainArgs args) ∧
    (buildVllmSubcommandArgs name resolved).count kvLayoutFlag = 1 ∧
    ((∀ arg ∈ buildVllmSubcommandArgs name resolved, beginsWith "--kv-layout=" arg = false) ↔
      ∀ arg ∈ args, arg.toStr = none → beginsWith "--kv-layout=" arg = false) := by
  obtain ⟨p, hscan, hnames, hplain⟩ := resolveSockKvLayoutArgs_spec h
  obtain ⟨hpolicy, hflag⟩ := resolveSockKvLayoutArgs_policy h
  have hpolicy : resolved.policy = .standard ∨ resolved.policy = .tmhAccounting ∨
      resolved.policy = .tmhPhysical := by
    rcases hpolicy with ⟨hp, -⟩ | ⟨hp | hp, -⟩ <;> simp [hp]
  obtain ⟨hone, hinjected⟩ := injectedArgs_spec name hpolicy
  obtain ⟨before, between, after, hbuild, hargs⟩ := buildVllmSubcommandArgs_split name resolved
  -- as a multiset: the arguments put in, and those passed through
  have hperm : (buildVllmSubcommandArgs name resolved).Perm
      (injectedArgs name resolved.policy ++ resolved.args) := by
    rw [hbuild, ← hargs, injectedArgs, List.perm_iff_count]
    intro a
    simp only [List.count_cons, List.count_append]
    omega
  refine ⟨⟨resolved.policy, before, between, after, hnames, hbuild, hargs.trans hplain⟩, ?_, ?_⟩
  · rw [hperm.count_eq, List.count_append, hone, List.count_eq_zero_of_not_mem hflag]
  · constructor
    · intro hnone arg hmem hraw
      apply hnone arg (hperm.mem_iff.mpr (List.mem_append_right _ _))
      rw [hplain]
      exact mem_plainArgs_of_toStr_none hscan hmem hraw
    · intro hnone arg hmem
      rcases List.mem_append.mp (hperm.mem_iff.mp hmem) with hmem | hmem
      · exact hinjected arg hmem
      · cases hraw : arg.toStr with
        | none =>
            rw [hplain] at hmem
            exact hnone arg (mem_of_mem_plainArgs hmem) hraw
        | some text =>
            have hother := ((scan_spec hscan).2 arg hmem).resolve_left List.not_mem_nil
            exact not_beginsWith_of_token hother (by simp [hraw])

/-- Two layout options, and a leading option that stays in front of the hot budget. -/
theorem rewriting_faithful_serve :
    (buildVllmSubcommandArgs .serve ⟨.tmhAccounting, [.text "--port", .text "8000"]⟩).count
        kvLayoutFlag = 1 ∧
      ∀ arg ∈ buildVllmSubcommandArgs .serve ⟨.tmhAccounting, [.text "--port", .text "8000"]⟩,
        beginsWith "--kv-layout=" arg = false :=
  have h := @rewriting_faithful_iff .serve
    [.text "--kv-layout=standard", .text "--port", .text "8000", .text "--kv-layout", .text "tmh"]
    ⟨.tmhAccounting, [.text "--port", .text "8000"]⟩ (by decide +kernel)
  ⟨h.2.1, h.2.2.mpr (by decide +kernel)⟩

/-- The option `--kv-layout=` with a byte that is no text. -/
def rawLayoutOption : OsString :=
  .other ⟨#[0x2D, 0x2D, 0x6B, 0x76, 0x2D, 0x6C, 0x61, 0x79, 0x6F, 0x75, 0x74, 0x3D, 0xFF]⟩
    (by decide +kernel)

/-- It is passed through, next to the layout pair. As a separate value, the byte is refused. -/
theorem rewriting_keeps_raw_option :
    resolveSockKvLayoutArgs [rawLayoutOption] = .ok ⟨.standard, [rawLayoutOption]⟩ ∧
      buildVllmSubcommandArgs .chat ⟨.standard, [rawLayoutOption]⟩ =
        [.text "chat", .text "--kv-layout", .text "standard", rawLayoutOption] ∧
      beginsWith "--kv-layout=" rawLayoutOption = true ∧
      resolveSockKvLayoutArgs [kvLayoutFlag, rawLayoutOption] =
        .error (.message "--kv-layout value must be valid UTF-8") := by
  decide +kernel

end Sock.Cli
