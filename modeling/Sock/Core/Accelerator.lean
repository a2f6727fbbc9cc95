/-
  Accelerators (core/src/accelerator.rs) and the host the planner sees
  (engine/src/planner.rs).

  * `parseNvidiaArchitectureClass`: the class an architecture name stands for.
  * `AcceleratorRuntimeContract.forHost`: the runtime a host gets, with the backend families
    it prefers.
  * `RequestedEnvironment`, `PlannerHostSnapshot`.

  Not modelled: a contract's witnesses, reasons and tensor parallelism, which no plan reads.

  `sm` is stripped before `sm_` is tried, so a name with an underscore has no class.
-/
import Mathlib.Algebra.Group.Nat.Defs
import Sock.Lib.Sorting
import Sock.Lib.Text

namespace Sock.Core

open Lib

/-! ## Names -/

inductive OperatingSystem
  | linux
  deriving DecidableEq

inductive AcceleratorVendor
  | nvidia | amd | unknown
  deriving DecidableEq

inductive BackendFamily
  | flashInfer | triton | aotInductor | cudaGraphs
  deriving DecidableEq, Ord

instance : Std.TransOrd BackendFamily :=
  inferInstanceAs (Std.TransCmp (compareOn BackendFamily.ctorIdx))

def BackendFamily.asStr : BackendFamily → String
  | .flashInfer => "flashinfer"
  | .triton => "triton"
  | .aotInductor => "aot-inductor"
  | .cudaGraphs => "cuda-graphs"

structure RequestedEnvironment where
  operatingSystem : OperatingSystem
  acceleratorVendor : AcceleratorVendor
  gpuArches : List String
  cudaVersion : String
  driverVersion : String
  pythonAbi : String
  libcAbi : String
  deriving DecidableEq

/-! ## Architecture classes -/

inductive NvidiaArchitectureClass
  | ampere | ada | hopper | blackwell
  deriving DecidableEq

namespace NvidiaArchitectureClass

def supportsCudaGraphs (_ : NvidiaArchitectureClass) : Bool := true

def supportsTma : NvidiaArchitectureClass → Bool
  | .hopper | .blackwell => true
  | .ampere | .ada => false

def supportsNvfp4 : NvidiaArchitectureClass → Bool
  | .blackwell => true
  | .ampere | .ada | .hopper => false

end NvidiaArchitectureClass

/-- The number a list of decimal digits stands for. -/
def digitsValue (cs : List Char) : Option Nat :=
  cs.foldlM (fun n c => if c.isDigit then some (10 * n + (c.toNat - 48)) else none) 0

/-- `str::parse::<u16>`: at least one digit, an optional plus sign, no overflow. -/
def parseU16 (s : String) : Option Nat :=
  let digits := match s.toList with
    | '+' :: rest => rest
    | cs => cs
  if digits.isEmpty then none else (digitsValue digits).filter (· < 2 ^ 16)

def parseNvidiaArchitectureClass (arch : String) : Option NvidiaArchitectureClass := do
  let sm ← ((stripPrefix "sm" (trim arch)).or (stripPrefix "sm_" (trim arch))).bind parseU16
  if sm = 80 ∨ sm = 86 ∨ sm = 87 then some .ampere
  else if sm = 89 then some .ada
  else if sm = 90 then some .hopper
  else if 100 ≤ sm then some .blackwell
  else none

/-! ## Runtime contracts -/

inductive AcceleratorRuntimeProfile
  | cuda | rocmWsl | python
  deriving DecidableEq

namespace AcceleratorRuntimeProfile

def asStr : AcceleratorRuntimeProfile → String
  | .cuda => "cuda"
  | .rocmWsl => "rocm-wsl"
  | .python => "python"

end AcceleratorRuntimeProfile

structure AcceleratorRuntimeContract where
  profile : AcceleratorRuntimeProfile
  vllmTargetDevice : String
  preferredBackendFamilies : List BackendFamily
  envDefaults : List (String × String)
  deriving DecidableEq

/-- The place of a family in a CUDA contract's preference list. -/
def cudaPreference : BackendFamily → Nat
  | .flashInfer => 0
  | .triton => 1
  | .cudaGraphs => 2
  | .aotInductor => 3

def cudaContract (gpuArches : List String) (flashinferPrebuiltAvailable : Bool) :
    AcceleratorRuntimeContract :=
  let classes := gpuArches.filterMap parseNvidiaArchitectureClass
  let families := (if flashinferPrebuiltAvailable then [.flashInfer] else []) ++ [.triton] ++
    (if classes.any (·.supportsCudaGraphs) then [.cudaGraphs] else []) ++
    (if classes.any (·.supportsTma) then [.aotInductor] else [])
  { profile := .cuda
    vllmTargetDevice := "cuda"
    preferredBackendFamilies :=
      sortBy (compareOn cudaPreference) (dedup (sort families))
    envDefaults :=
      [("CUDA_DEVICE_ORDER", "PCI_BUS_ID"), ("CUDA_MODULE_LOADING", "LAZY"),
        ("VLLM_WORKER_MULTIPROC_METHOD", "spawn"), ("VLLM_USE_V2_MODEL_RUNNER", "1")] }

def rocmWslContract : AcceleratorRuntimeContract where
  profile := .rocmWsl
  vllmTargetDevice := "rocm"
  preferredBackendFamilies := [.triton]
  envDefaults :=
    [("VLLM_USE_V2_MODEL_RUNNER", "0"), ("VLLM_WSL2_ENABLE_PIN_MEMORY", "0"),
      ("VLLM_WORKER_MULTIPROC_METHOD", "spawn")]

def pythonContract : AcceleratorRuntimeContract where
  profile := .python
  vllmTargetDevice := "cpu"
  preferredBackendFamilies := []
  envDefaults := []

def AcceleratorRuntimeContract.forHost (vendor : AcceleratorVendor) (gpuArches : List String)
    (flashinferPrebuiltAvailable : Bool) : AcceleratorRuntimeContract :=
  match vendor with
  | .nvidia => cudaContract gpuArches flashinferPrebuiltAvailable
  | .amd => rocmWslContract
  | .unknown => pythonContract

/-! ## The host -/

structure PlannerHostSnapshot where
  operatingSystem : OperatingSystem
  acceleratorVendor : AcceleratorVendor
  gpuArches : List String
  cudaVersion : String
  driverVersion : String
  pythonAbi : String
  libcAbi : String
  flashinferPrebuiltAvailable : Bool
  deviceCount : UInt16
  deriving DecidableEq

def PlannerHostSnapshot.runtimeContract (host : PlannerHostSnapshot) :
    AcceleratorRuntimeContract :=
  .forHost host.acceleratorVendor host.gpuArches host.flashinferPrebuiltAvailable

/-- **Underscore.** An architecture name that starts with `sm_` has no class. -/
theorem parseNvidiaArchitectureClass_underscore {arch : String} {cs : List Char}
    (h : (trim arch).toList = 's' :: 'm' :: '_' :: cs) :
    parseNvidiaArchitectureClass arch = none := by
  have hs : stripPrefix "sm" (trim arch) = some (String.ofList ('_' :: cs)) := by
    simp [stripPrefix, startsWith, h]
  have hd : digitsValue ('_' :: cs) = none := by
    simp [digitsValue]
  simp [parseNvidiaArchitectureClass, hs, parseU16, hd]

end Sock.Core
