/-
  KV layouts (core/src/kv_layout.rs): the layout a request names, the runtime mode it implies,
  and the check that a host can run it.

  * `KvLayoutPolicy`: layout, runtime mode and hot budget; `vllmTmhPolicy` names the policy
    vLLM is to run.
  * `KvLayoutBackend.forPolicy`, `KvLayoutBackend.validate`: what a layout supports, and the
    four checks in the order the code makes them.
  * `validate_ok_iff`: exactly the policies that pass.
-/
import Sock.Core.Accelerator

namespace Sock.Core

/-! ## Policies -/

inductive KvLayoutId
  | standardPaged | tmhFidelityPaged
  deriving DecidableEq

def KvLayoutId.asStr : KvLayoutId → String
  | .standardPaged => "standard"
  | .tmhFidelityPaged => "tmh"

structure KvLayoutParseError where
  value : String
  deriving DecidableEq

def KvLayoutId.fromStr (value : String) : Except KvLayoutParseError KvLayoutId :=
  match value with
  | "standard" | "standard_paged" | "standard_paged_kv" => .ok .standardPaged
  | "tmh" | "tmh_fidelity_paged" | "tmh_fidelity_paged_kv" => .ok .tmhFidelityPaged
  | other => .error ⟨other⟩

theorem KvLayoutId.fromStr_ok {value : String} {layout : KvLayoutId}
    (h : KvLayoutId.fromStr value = .ok layout) :
    layout = .standardPaged ↔
      value = "standard" ∨ value = "standard_paged" ∨ value = "standard_paged_kv" := by
  unfold KvLayoutId.fromStr at h
  split at h
  all_goals
    cases h
    try decide

inductive KvLayoutRuntimeMode
  | standard | accounting | physical
  deriving DecidableEq

structure KvLayoutPolicy where
  layout : KvLayoutId
  runtimeMode : KvLayoutRuntimeMode
  hotBudgetPct : UInt8
  deriving DecidableEq

namespace KvLayoutPolicy

def defaultHotBudgetPct : UInt8 := 25

def standard : KvLayoutPolicy := ⟨.standardPaged, .standard, defaultHotBudgetPct⟩

def tmhAccounting : KvLayoutPolicy := ⟨.tmhFidelityPaged, .accounting, defaultHotBudgetPct⟩

def tmhPhysical : KvLayoutPolicy := ⟨.tmhFidelityPaged, .physical, defaultHotBudgetPct⟩

/-- The standard layout has one mode. -/
def canonicalize (policy : KvLayoutPolicy) : KvLayoutPolicy :=
  if policy.layout = .standardPaged then { policy with runtimeMode := .standard } else policy

/-- The name of the policy vLLM is to run. -/
def vllmTmhPolicy (policy : KvLayoutPolicy) : String :=
  match policy.runtimeMode with
  | .standard => "off"
  | .accounting => "accounting"
  | .physical => "physical"

end KvLayoutPolicy

/-! ## Compatibility -/

structure KvLayoutBackend where
  id : KvLayoutId
  name : String
  physicalStorageSupported : Bool
  accountingSupported : Bool
  supportedVendors : List AcceleratorVendor
  compatibleAttentionBackends : List BackendFamily
  failClosedReasons : List String
  deriving DecidableEq

inductive KvLayoutCompatibilityError
  | unsupportedVendor (layout : KvLayoutId) (vendor : AcceleratorVendor)
  | accountingUnavailable (layout : KvLayoutId)
  | physicalUnavailable (layout : KvLayoutId) (reasons : List String)
  | noCompatibleAttentionBackend (layout : KvLayoutId) (preferredFamilies : List BackendFamily)
  deriving DecidableEq

namespace KvLayoutBackend

def forPolicy (policy : KvLayoutPolicy) : KvLayoutBackend :=
  match policy.layout with
  | .standardPaged =>
      { id := .standardPaged
        name := "standard paged KV"
        physicalStorageSupported := true
        accountingSupported := false
        supportedVendors := [.nvidia, .amd]
        compatibleAttentionBackends := [.flashInfer, .triton, .aotInductor, .cudaGraphs]
        failClosedReasons := [] }
  | .tmhFidelityPaged =>
      { id := .tmhFidelityPaged
        name := "TMH fidelity paged KV"
        physicalStorageSupported := false
        accountingSupported := true
        supportedVendors := [.nvidia, .amd]
        compatibleAttentionBackends := [.flashInfer, .triton]
        failClosedReasons := match policy.runtimeMode with
          | .physical =>
              ["physical TMH requires mixed-fidelity warm-page tensors",
                "physical TMH requires layout-aware attention kernels"]
          | _ => [] }

def validate (backend : KvLayoutBackend) (policy : KvLayoutPolicy)
    (environment : RequestedEnvironment) (preferredFamilies : List BackendFamily) :
    Except KvLayoutCompatibilityError Unit :=
  if environment.acceleratorVendor ∉ backend.supportedVendors then
    .error (.unsupportedVendor backend.id environment.acceleratorVendor)
  else if policy.runtimeMode = .physical ∧ backend.physicalStorageSupported = false then
    .error (.physicalUnavailable backend.id backend.failClosedReasons)
  else if policy.runtimeMode = .accounting ∧ backend.accountingSupported = false then
    .error (.accountingUnavailable backend.id)
  else if ∀ family ∈ preferredFamilies, family ∉ backend.compatibleAttentionBackends then
    .error (.noCompatibleAttentionBackend backend.id preferredFamilies)
  else .ok ()

theorem validate_ok_iff {backend : KvLayoutBackend} {policy : KvLayoutPolicy}
    {environment : RequestedEnvironment} {preferredFamilies : List BackendFamily} :
    backend.validate policy environment preferredFamilies = .ok () ↔
      environment.acceleratorVendor ∈ backend.supportedVendors ∧
      (policy.runtimeMode = .physical → backend.physicalStorageSupported = true) ∧
      (policy.runtimeMode = .accounting → backend.accountingSupported = true) ∧
      ∃ family ∈ preferredFamilies, family ∈ backend.compatibleAttentionBackends := by
  unfold validate
  split
  · simp [*]
  · split
    · rename_i h
      simp [h.1, h.2]
    · split
      · rename_i h
        simp [h.1, h.2]
      · split
        · simp only [reduceCtorEq, false_iff]
          rintro ⟨-, -, -, family, hmem, hok⟩
          exact absurd hok (by simp_all)
        · simp_all

/-- **Fail closed.** No host passes the physical mode of the TMH layout. -/
theorem validate_tmhPhysical (environment : RequestedEnvironment)
    (preferredFamilies : List BackendFamily) (policy : KvLayoutPolicy)
    (hlayout : policy.layout = .tmhFidelityPaged) (hmode : policy.runtimeMode = .physical) :
    (forPolicy policy).validate policy environment preferredFamilies ≠ .ok () := by
  intro h
  have hphysical := (validate_ok_iff.mp h).2.1 hmode
  simp [forPolicy, hlayout] at hphysical

end KvLayoutBackend

end Sock.Core
