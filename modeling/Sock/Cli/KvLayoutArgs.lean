/-
  The KV layout on the command line (app/src/main.rs): how a vLLM subcommand's arguments are
  scanned for `--kv-layout`, how the policy they name is checked against the host, and which
  arguments vLLM is started with; and the policy vLLM's cache configuration derives from them
  (vllm/config/cache.py).

  * `resolveSockKvLayoutArgs`, `validateSockKvLayoutPolicy`, `buildVllmSubcommandArgs`,
    `runVendoredVllmSubcommand`.
  * `layoutValues`: the values of the layout options, in order; `scan_spec`: the last one
    decides the policy, and no layout option is passed through.
  * `tmhKvPolicy`: vLLM's policy for an argument list.
  * `failsClosed_iff`: vLLM runs the mode that was checked exactly when the last layout option
    names the standard layout.

  Not modelled: the start of the process itself, and spellings of `--kv-layout` that only
  vLLM's own parser knows (underscores, abbreviations, configuration files).
-/
import Sock.Core.KvLayout
import Sock.Lib.Fallible

namespace Sock.Cli

open Lib Sock.Core

/-! ## Arguments -/

/-- An argument of the process. -/
abbrev OsString := Bytes

/-- The subcommands handed to vLLM. -/
inductive VllmSubcommand
  | serve | chat | complete | bench | collectEnv | runBatch | launch | render
  deriving DecidableEq

def VllmSubcommand.name : VllmSubcommand → String
  | .serve => "serve"
  | .chat => "chat"
  | .complete => "complete"
  | .bench => "bench"
  | .collectEnv => "collect-env"
  | .runBatch => "run-batch"
  | .launch => "launch"
  | .render => "render"

def kvLayoutFlag : OsString := .text "--kv-layout"

def startsWithHyphen (value : OsString) : Bool := value.toStr.any (startsWith "-")

def isHelpRequest (args : List OsString) : Bool :=
  (args.filterMap Bytes.toStr).any fun arg =>
    arg = "-h" || arg = "--help" || startsWith "--help=" arg

/-! ## Resolution -/

inductive CliError
  | message (text : String)
  | parse (error : KvLayoutParseError)
  | incompatible (context : String) (error : KvLayoutCompatibilityError)
  deriving DecidableEq

def kvLayoutPolicyFromStr (value : String) : Except CliError KvLayoutPolicy :=
  match value with
  | "standard" => .ok .standard
  | "tmh" => .ok .tmhAccounting
  | "tmh-physical" | "tmh_physical" | "physical" => .ok .tmhPhysical
  | _ =>
      match KvLayoutId.fromStr value with
      | .error e => .error (.parse e)
      | .ok .standardPaged => .ok .standard
      | .ok .tmhFidelityPaged => .ok .tmhAccounting

def kvLayoutPolicyFromOsValue (value : OsString) : Except CliError KvLayoutPolicy :=
  match value.toStr with
  | none => .error (.message "--kv-layout value must be valid UTF-8")
  | some value => kvLayoutPolicyFromStr value

/-- What one argument is to the scanner. -/
inductive Token
  | removedPolicy
  | layoutFlag
  | layoutValue (value : String)
  | other
  deriving DecidableEq

/-- The scanner's tests on one argument, in its order. -/
def token (arg : OsString) : Token :=
  match arg.toStr with
  | none => .other
  | some text =>
      if text = "--tmh-kv-policy" ∨ startsWith "--tmh-kv-policy=" text then .removedPolicy
      else if text = "--kv-layout" then .layoutFlag
      else match stripPrefix "--kv-layout=" text with
        | some value => .layoutValue value
        | none => .other

/-- The loop of `resolve_sock_kv_layout_args`, with the policy and the arguments so far. -/
def scan : List OsString → KvLayoutPolicy → List OsString →
    Except CliError (KvLayoutPolicy × List OsString)
  | [], policy, passthrough => .ok (policy, passthrough)
  | arg :: rest, policy, passthrough =>
      match token arg with
      | .removedPolicy => .error (.message ("--tmh-kv-policy has been removed from the sock " ++
          "CLI; use --kv-layout standard or --kv-layout tmh"))
      | .layoutFlag =>
          match rest with
          | [] => .error (.message "--kv-layout requires a value: standard or tmh")
          | value :: rest =>
              match kvLayoutPolicyFromOsValue value with
              | .error e => .error e
              | .ok policy => scan rest policy passthrough
      | .layoutValue value =>
          match kvLayoutPolicyFromStr value with
          | .error e => .error e
          | .ok policy => scan rest policy passthrough
      | .other => scan rest policy (passthrough ++ [arg])

structure ResolvedSockKvLayoutArgs where
  policy : KvLayoutPolicy
  args : List OsString
  deriving DecidableEq

def resolveSockKvLayoutArgs (args : List OsString) : Except CliError ResolvedSockKvLayoutArgs :=
  match scan args .standard [] with
  | .error e => .error e
  | .ok (policy, passthrough) => .ok ⟨policy.canonicalize, passthrough⟩

/-! ## Validation -/

def requestedEnvironment (host : PlannerHostSnapshot) : RequestedEnvironment where
  operatingSystem := host.operatingSystem
  acceleratorVendor := host.acceleratorVendor
  gpuArches := host.gpuArches
  cudaVersion := host.cudaVersion
  driverVersion := host.driverVersion
  pythonAbi := host.pythonAbi
  libcAbi := host.libcAbi

def validateSockKvLayoutPolicy (host : PlannerHostSnapshot) (policy : KvLayoutPolicy) :
    Except CliError Unit :=
  let runtime := host.runtimeContract
  match (KvLayoutBackend.forPolicy policy).validate policy
      (requestedEnvironment host) runtime.preferredBackendFamilies with
  | .ok () => .ok ()
  | .error e => .error (.incompatible ("KV layout " ++ policy.layout.asStr ++
      " is not compatible with the detected " ++ runtime.profile.asStr ++ " runtime") e)

/-! ## The arguments of vLLM -/

def layoutArgs (policy : KvLayoutPolicy) : List OsString :=
  [kvLayoutFlag, .text policy.layout.asStr]

def hotBudgetArgs (policy : KvLayoutPolicy) : List OsString :=
  if policy.layout = .tmhFidelityPaged then
    [.text "--tmh-hot-budget-pct", .text (toString policy.hotBudgetPct.toNat)]
  else []

/-- `serve` keeps a leading positional argument in front of the layout. -/
def buildVllmSubcommandArgs (name : VllmSubcommand) (resolved : ResolvedSockKvLayoutArgs) :
    List OsString :=
  match name, resolved.args with
  | .serve, first :: rest =>
      if startsWithHyphen first then
        .text name.name :: layoutArgs resolved.policy ++ first :: hotBudgetArgs resolved.policy ++
          rest
      else
        .text name.name :: first :: layoutArgs resolved.policy ++ hotBudgetArgs resolved.policy ++
          rest
  | _, args =>
      .text name.name :: layoutArgs resolved.policy ++ hotBudgetArgs resolved.policy ++ args

/-- The arguments vLLM is started with. -/
def runVendoredVllmSubcommand (host : PlannerHostSnapshot) (name : VllmSubcommand)
    (args : List OsString) : Except CliError (List OsString) :=
  if isHelpRequest args then .ok (.text name.name :: args)
  else do
    let resolved ← resolveSockKvLayoutArgs args
    validateSockKvLayoutPolicy host resolved.policy
    return buildVllmSubcommandArgs name resolved

/-! ## vLLM's side -/

/-- `TMHKVPolicy` of vllm/config/cache.py. -/
inductive TMHKVPolicy
  | off | accounting | physical
  deriving DecidableEq

def TMHKVPolicy.value : TMHKVPolicy → String
  | .off => "off"
  | .accounting => "accounting"
  | .physical => "physical"

/-- The mode of the KV layout that a policy of vLLM runs. -/
def TMHKVPolicy.runtimeMode : TMHKVPolicy → KvLayoutRuntimeMode
  | .off => .standard
  | .accounting => .accounting
  | .physical => .physical

/-- The value of the last `--kv-layout` among the arguments. -/
def kvLayoutArgument : List OsString → Option OsString
  | [] => none
  | [_] => none
  | arg :: value :: rest =>
      if arg = kvLayoutFlag then (kvLayoutArgument rest).or (some value)
      else kvLayoutArgument (value :: rest)

/-- `CacheConfig._resolve_and_validate_kv_layout`. -/
def resolveAndValidateKvLayout (kvLayout : String) (policy : TMHKVPolicy) :
    Except String TMHKVPolicy :=
  if kvLayout = "standard" then
    if policy ≠ .off then .error "standard kv_layout cannot enable TMH allocator policy"
    else .ok .off
  else if kvLayout = "tmh" then
    if policy = .off then .ok .physical else .ok policy
  else if policy ≠ .off then
    .error ("'" ++ kvLayout ++ "' kv_layout cannot enable TMH allocator policy")
  else .ok policy

/-- The policy the cache configuration derives from the arguments: `kv_layout` is `standard`
    unless an argument gives it, and no argument gives `tmh_kv_policy`. -/
def tmhKvPolicy (vllmArgs : List OsString) : Except String TMHKVPolicy :=
  match kvLayoutArgument vllmArgs with
  | none => resolveAndValidateKvLayout "standard" .off
  | some (.text kvLayout) => resolveAndValidateKvLayout kvLayout .off
  | some (.other ..) => .error "kv_layout is not a text"

/-! ## The last layout option decides -/

/-- The values of the layout options, in order. -/
def layoutValues : List OsString → List OsString
  | [] => []
  | arg :: rest =>
      match token arg with
      | .layoutFlag =>
          match rest with
          | [] => []
          | value :: rest => value :: layoutValues rest
      | .layoutValue value => .text value :: layoutValues rest
      | .removedPolicy | .other => layoutValues rest

/-- The last of the layout options names the policy `p`; without one it is `policy`. -/
def Names (values : List OsString) (policy p : KvLayoutPolicy) : Prop :=
  match values.getLast? with
  | none => p = policy
  | some value => kvLayoutPolicyFromOsValue value = .ok p

theorem Names.cons {value : OsString} {values : List OsString} {policy policy' p : KvLayoutPolicy}
    (hvalue : kvLayoutPolicyFromOsValue value = .ok policy') (h : Names values policy' p) :
    Names (value :: values) policy p := by
  unfold Names at h ⊢
  rw [List.getLast?_cons]
  cases hlast : values.getLast? with
  | none =>
      rw [hlast] at h
      simpa [h] using hvalue
  | some last =>
      rw [hlast] at h
      simpa using h

theorem scan_spec {args passthrough out : List OsString} {policy p : KvLayoutPolicy}
    (h : scan args policy passthrough = .ok (p, out)) :
    Names (layoutValues args) policy p ∧
      ∀ arg ∈ out, arg ∈ passthrough ∨ token arg = .other := by
  fun_induction scan args policy passthrough with
  | case1 policy passthrough =>
      cases h
      exact ⟨rfl, fun arg hmem => .inl hmem⟩
  | case2 | case3 | case4 | case6 => cases h
  | case5 flag policy passthrough htoken value rest policy' hvalue ih =>
      rw [layoutValues.eq_def]
      simp only [htoken]
      exact ⟨.cons hvalue (ih h).1, (ih h).2⟩
  | case7 arg rest policy passthrough value htoken policy' hvalue ih =>
      rw [layoutValues.eq_def]
      simp only [htoken]
      exact ⟨.cons hvalue (ih h).1, (ih h).2⟩
  | case8 arg rest policy passthrough htoken ih =>
      rw [layoutValues.eq_def]
      simp only [htoken]
      refine ⟨(ih h).1, fun a hmem => ?_⟩
      rcases (ih h).2 a hmem with hmem | hother
      · rcases List.mem_append.mp hmem with hmem | hmem
        · exact .inl hmem
        · rw [List.mem_singleton.mp hmem]
          exact .inr htoken
      · exact .inr hother

/-! ## What the values stand for -/

/-- The values that name the standard layout. -/
def standardNames : List OsString :=
  [.text "standard", .text "standard_paged", .text "standard_paged_kv"]

theorem kvLayoutPolicyFromOsValue_ok {value : OsString} {p : KvLayoutPolicy}
    (h : kvLayoutPolicyFromOsValue value = .ok p) :
    p = .standard ∧ value ∈ standardNames ∨
      (p = .tmhAccounting ∨ p = .tmhPhysical) ∧ value ∉ standardNames := by
  cases value with
  | other raw hraw => cases h
  | text s =>
      replace h : kvLayoutPolicyFromStr s = .ok p := h
      unfold kvLayoutPolicyFromStr at h
      split at h
      case h_1 => cases h; simp [standardNames]
      case h_2 | h_3 | h_4 | h_5 => cases h; simp [standardNames]
      case h_6 =>
        -- the names of `KvLayoutId::from_str` that the command line does not match itself
        split at h
        · cases h
        · rename_i hid
          cases h
          exact .inl ⟨rfl, by simpa [standardNames] using (KvLayoutId.fromStr_ok hid).mp rfl⟩
        · rename_i hid
          cases h
          have hother := mt (KvLayoutId.fromStr_ok hid).mpr (by decide)
          exact .inr ⟨.inl rfl, by simpa [standardNames] using hother⟩

/-! ## The layout that vLLM reads -/

theorem token_kvLayoutFlag : token kvLayoutFlag = .layoutFlag := by decide +kernel

theorem kvLayoutArgument_of_not_mem {args : List OsString} (h : kvLayoutFlag ∉ args) :
    kvLayoutArgument args = none := by
  fun_induction kvLayoutArgument args with
  | case1 | case2 => rfl
  | case3 value rest => simp at h
  | case4 arg value rest hne ih => exact ih fun hmem => h (List.mem_cons_of_mem _ hmem)

theorem kvLayoutArgument_append (before : List OsString) {after : List OsString}
    {value : OsString} (hbefore : kvLayoutFlag ∉ before) (hafter : kvLayoutFlag ∉ after) :
    kvLayoutArgument (before ++ kvLayoutFlag :: value :: after) = some value := by
  induction before with
  | nil => simp [kvLayoutArgument, kvLayoutArgument_of_not_mem hafter]
  | cons arg before ih =>
      have hne : arg ≠ kvLayoutFlag := fun h => hbefore (by simp [h])
      have hrest := ih fun hmem => hbefore (List.mem_cons_of_mem _ hmem)
      cases before with
      | nil => simpa [kvLayoutArgument, hne] using hrest
      | cons next before => simpa [kvLayoutArgument, hne] using hrest

theorem toString_ne_kvLayoutFlag (n : Nat) : kvLayoutFlag ≠ .text (toString n) := by
  intro h
  have htext : toString n = "--kv-layout" := (Bytes.text.inj h).symm
  have hhyphen : '-' ∈ Nat.toDigits 10 n := by
    have hlist := congrArg String.toList htext
    rw [Nat.toString_eq_ofList_toDigits, String.toList_ofList] at hlist
    rw [hlist]
    decide
  exact absurd (Nat.isDigit_of_mem_toDigits (by decide) (by decide) hhyphen) (by decide)

/-- The layout pair is the only `--kv-layout` among the arguments built for vLLM. -/
theorem kvLayoutArgument_buildVllmSubcommandArgs (name : VllmSubcommand)
    {resolved : ResolvedSockKvLayoutArgs} (h : kvLayoutFlag ∉ resolved.args) :
    kvLayoutArgument (buildVllmSubcommandArgs name resolved) =
      some (.text resolved.policy.layout.asStr) := by
  have hname : kvLayoutFlag ≠ .text name.name := by cases name <;> decide
  have hbudget : kvLayoutFlag ∉ hotBudgetArgs resolved.policy := by
    unfold hotBudgetArgs
    split
    · simp only [List.mem_cons, List.not_mem_nil, or_false, not_or]
      exact ⟨by decide, toString_ne_kvLayoutFlag _⟩
    · exact List.not_mem_nil
  unfold buildVllmSubcommandArgs layoutArgs
  split
  · rename_i first rest hargs
    rw [hargs, List.mem_cons, not_or] at h
    split
    · exact kvLayoutArgument_append [_] (by simpa) (by simp_all)
    · exact kvLayoutArgument_append [_, first] (by simp_all) (by simp_all)
  · exact kvLayoutArgument_append [_] (by simpa) (by simp_all)

/-- vLLM derives the physical mode from every TMH layout. -/
theorem tmhKvPolicy_buildVllmSubcommandArgs (name : VllmSubcommand)
    {resolved : ResolvedSockKvLayoutArgs} (h : kvLayoutFlag ∉ resolved.args) :
    tmhKvPolicy (buildVllmSubcommandArgs name resolved) =
      .ok (match resolved.policy.layout with
        | .standardPaged => .off
        | .tmhFidelityPaged => .physical) := by
  rw [tmhKvPolicy, kvLayoutArgument_buildVllmSubcommandArgs name h]
  cases resolved.policy.layout <;> rfl

/-! ## The mode that runs and the mode that was checked -/

/-- The mode vLLM derives from its arguments is the one `policy` names, and the check on the
    host accepts it. -/
def FailsClosed (host : PlannerHostSnapshot) (policy : KvLayoutPolicy)
    (vllmArgs : List OsString) : Prop :=
  ∃ derived, tmhKvPolicy vllmArgs = .ok derived ∧ derived.value = policy.vllmTmhPolicy ∧
    validateSockKvLayoutPolicy host { policy with runtimeMode := derived.runtimeMode } = .ok ()

/-- The last layout option names the standard layout, or there is none. -/
def LastLayoutStandard (args : List OsString) : Prop :=
  ∀ value ∈ (layoutValues args).getLast?, value ∈ standardNames

/-- A policy that resolution can return, with the layout option it comes from. -/
theorem resolveSockKvLayoutArgs_policy {args : List OsString}
    {resolved : ResolvedSockKvLayoutArgs} (h : resolveSockKvLayoutArgs args = .ok resolved) :
    (resolved.policy = .standard ∧ LastLayoutStandard args ∨
      (resolved.policy = .tmhAccounting ∨ resolved.policy = .tmhPhysical) ∧
        ¬ LastLayoutStandard args) ∧ kvLayoutFlag ∉ resolved.args := by
  unfold resolveSockKvLayoutArgs at h
  split at h
  · cases h
  · rename_i policy passthrough hscan
    cases h
    obtain ⟨hnames, hother⟩ := scan_spec hscan
    constructor
    · unfold Names at hnames
      unfold LastLayoutStandard
      split at hnames
      · rename_i hlast
        simp only [hlast, hnames]
        exact .inl ⟨rfl, by simp⟩
      · rename_i value hlast
        simp only [hlast, Option.mem_some_iff, forall_eq']
        rcases kvLayoutPolicyFromOsValue_ok hnames with ⟨rfl, hmem⟩ | ⟨rfl | rfl, hmem⟩
        · exact .inl ⟨rfl, hmem⟩
        · exact .inr ⟨.inl rfl, hmem⟩
        · exact .inr ⟨.inr rfl, hmem⟩
    · intro hmem
      rcases hother _ hmem with hmem | hother
      · cases hmem
      · rw [token_kvLayoutFlag] at hother
        cases hother

theorem runVendoredVllmSubcommand_eq {host : PlannerHostSnapshot} {args : List OsString}
    {resolved : ResolvedSockKvLayoutArgs} (name : VllmSubcommand)
    (hhelp : isHelpRequest args = false) (hresolve : resolveSockKvLayoutArgs args = .ok resolved)
    (hvalid : validateSockKvLayoutPolicy host resolved.policy = .ok ()) :
    runVendoredVllmSubcommand host name args = .ok (buildVllmSubcommandArgs name resolved) := by
  simp only [runVendoredVllmSubcommand, hhelp, Bool.false_eq_true, if_false, hresolve]
  simp only [bind, Except.bind, hvalid]
  rfl

theorem validateSockKvLayoutPolicy_tmhPhysical (host : PlannerHostSnapshot) :
    validateSockKvLayoutPolicy host .tmhPhysical ≠ .ok () := by
  intro h
  simp only [validateSockKvLayoutPolicy] at h
  split at h
  · rename_i hok
    exact KvLayoutBackend.validate_tmhPhysical _ _ _ rfl rfl hok
  · cases h

/-- **The checked mode is the one that runs.** For every subcommand and every argument list
    that is resolved and passes the check, vLLM is started, and the mode it derives is the
    checked one exactly when the last layout option names the standard layout. Every other
    layout option passes the check as accounting and runs as physical. -/
theorem failsClosed_iff (host : PlannerHostSnapshot) (name : VllmSubcommand)
    (args : List OsString) (resolved : ResolvedSockKvLayoutArgs)
    (hhelp : isHelpRequest args = false) (hresolve : resolveSockKvLayoutArgs args = .ok resolved)
    (hvalid : validateSockKvLayoutPolicy host resolved.policy = .ok ()) :
    ∃ vllmArgs, runVendoredVllmSubcommand host name args = .ok vllmArgs ∧
      (FailsClosed host resolved.policy vllmArgs ↔ LastLayoutStandard args) := by
  refine ⟨_, runVendoredVllmSubcommand_eq name hhelp hresolve hvalid, ?_⟩
  obtain ⟨hpolicy, hflag⟩ := resolveSockKvLayoutArgs_policy hresolve
  have hderived := tmhKvPolicy_buildVllmSubcommandArgs name hflag
  rcases hpolicy with ⟨hp, hlast⟩ | ⟨hp | hp, hlast⟩
  · rw [hp] at hderived hvalid ⊢
    exact iff_of_true ⟨.off, hderived, rfl, hvalid⟩ hlast
  · rw [hp] at hderived ⊢
    refine iff_of_false ?_ hlast
    rintro ⟨derived, hrun, hvalue, -⟩
    cases hderived.symm.trans hrun
    exact absurd hvalue (by decide)
  · rw [hp] at hvalid
    exact absurd hvalid (validateSockKvLayoutPolicy_tmhPhysical host)

/-- A host with one Ada card. -/
def adaHost : PlannerHostSnapshot where
  operatingSystem := .linux
  acceleratorVendor := .nvidia
  gpuArches := ["sm89"]
  cudaVersion := "12.8"
  driverVersion := "570.0"
  pythonAbi := "cp312"
  libcAbi := "glibc-2.39"
  flashinferPrebuiltAvailable := true
  deviceCount := 1

theorem failsClosed_iff_standard :
    ∃ vllmArgs, runVendoredVllmSubcommand adaHost .serve
        [.text "--kv-layout", .text "tmh", .text "--kv-layout=standard"] = .ok vllmArgs ∧
      (FailsClosed adaHost .standard vllmArgs ↔
        LastLayoutStandard [.text "--kv-layout", .text "tmh", .text "--kv-layout=standard"]) :=
  failsClosed_iff adaHost .serve _ ⟨.standard, []⟩ (by decide +kernel) (by decide +kernel)
    (by decide +kernel)

/-- `sock serve m --kv-layout tmh` passes the check as accounting; vLLM derives physical, which
    the check refuses. -/
theorem serve_tmh_not_failsClosed :
    isHelpRequest [.text "m", .text "--kv-layout", .text "tmh"] = false ∧
    resolveSockKvLayoutArgs [.text "m", .text "--kv-layout", .text "tmh"] =
      .ok ⟨.tmhAccounting, [.text "m"]⟩ ∧
    validateSockKvLayoutPolicy adaHost .tmhAccounting = .ok () ∧
    ∃ vllmArgs,
      runVendoredVllmSubcommand adaHost .serve [.text "m", .text "--kv-layout", .text "tmh"] =
        .ok vllmArgs ∧
      tmhKvPolicy vllmArgs = .ok .physical ∧
      validateSockKvLayoutPolicy adaHost .tmhPhysical ≠ .ok () ∧
      ¬ FailsClosed adaHost .tmhAccounting vllmArgs := by
  refine ⟨by decide +kernel, by decide +kernel, by decide +kernel,
    [.text "serve", .text "m", .text "--kv-layout", .text "tmh", .text "--tmh-hot-budget-pct",
      .text "25"], by decide +kernel, by decide +kernel, by decide +kernel, ?_⟩
  rintro ⟨derived, hrun, hvalue, -⟩
  have hphysical : derived = .physical :=
    (Except.ok.inj (hrun.symm.trans (by decide +kernel)))
  rw [hphysical] at hvalue
  exact absurd hvalue (by decide)

end Sock.Cli
