import ChutesApi.Chute.Model.NodeSelector
import ChutesApi.Python.Double
import ChutesApi.Python.Regex
/-!
# What a miner says of a GPU

A row of `nodes` is built by a constructor that checks what the miner says
against `SUPPORTED_GPUS`: the name has to be of a GPU that is known, which
is then the one it is identified as, with the memory, the processors and the
clock of its kind. A `Node` carries that it got through (`Fits`).
-/

namespace ChutesApi

open Python

/-- What the rows of `nodes` and the challenges read of an entry of
`SUPPORTED_GPUS`. -/
structure GpuSpecs where
  modelNameCheck : Regex
  memory : ℕ
  processors : ℕ
  baseClock : ℕ
  boostClock : ℕ
  iterations : ℕ
  estimate : ℕ

section

open Regex

/-- `.` -/
private def dot : Regex := char (· != '\n')

private def lit (s : String) : Regex := text s.toList

/-- Patterns one after the other. -/
private def seqs : List Regex → Regex
  | [] => lit ""
  | [r] => r
  | r :: rs => seq r (seqs rs)

/-- **`SUPPORTED_GPUS`**, in its order. -/
def gpuSpecs : List (String × GpuSpecs) :=
  [("3090", ⟨lit "RTX 3090", 24, 82, 1395, 1695, 1, 70⟩),
   ("4090", ⟨lit "RTX 4090", 24, 128, 2235, 2520, 2, 65⟩),
   ("5090", ⟨lit "RTX 5090", 32, 170, 2017, 2407, 2, 60⟩),
   ("a4000", ⟨seq (lit "RTX A4000") (notAhead (lit " Ada")), 16, 48, 765, 1560, 1, 75⟩),
   ("a4000_ada", ⟨lit "RTX 4000 Ada", 20, 48, 765, 2175, 1, 80⟩),
   ("a5000", ⟨lit "RTX A5000", 24, 64, 1170, 1695, 1, 92⟩),
   ("a6000", ⟨seq (lit "RTX A6000") (notAhead (lit " Ada")), 48, 84, 1455, 1860, 1, 140⟩),
   ("a6000_ada", ⟨lit "RTX 6000 Ada", 48, 142, 915, 2505, 1, 60⟩),
   ("pro_6000", ⟨lit "RTX PRO 6000", 96, 188, 1590, 2617, 1, 103⟩),
   ("l4", ⟨seq (lit "L4") (notAhead (lit "0")), 24, 58, 795, 2040, 1, 85⟩),
   ("a10", ⟨seqs [lit "A10", notAhead (lit "0"), notAhead (lit "G")], 24, 72, 1110, 1710, 1, 82⟩),
   ("a40", ⟨lit "A40", 48, 84, 1305, 1740, 1, 142⟩),
   ("l40", ⟨seq (lit "L40") (notAhead (lit "S")), 48, 142, 735, 2490, 1, 60⟩),
   ("l40s", ⟨lit "L40S", 48, 142, 1065, 2520, 1, 60⟩),
   ("a100_40gb", ⟨seqs [lit "A100", opt dot, lit "PCIE", opt dot, lit "40GB"],
      40, 108, 1065, 1410, 4, 60⟩),
   ("a100_40gb_sxm", ⟨seqs [lit "A100", opt dot, lit "SXM", opt dot, opt dot, lit "40GB"],
      40, 108, 1065, 1410, 4, 60⟩),
   ("a100", ⟨seqs [lit "A100", opt dot, lit "80GB", opt dot, lit "PCIe"],
      80, 108, 1065, 1410, 2, 58⟩),
   ("a100_sxm", ⟨seqs [lit "A100", opt dot, lit "SXM", opt dot, opt dot, lit "80GB"],
      80, 108, 1275, 1410, 3, 70⟩),
   ("h100", ⟨seqs [lit "H100", many (· != '\n'), lit "PCIe"], 80, 114, 1095, 1755, 2, 62⟩),
   ("h100_nvl", ⟨seqs [lit "H100", many (· != '\n'), lit "NVL"], 96, 132, 1590, 1980, 3, 75⟩),
   ("h100_sxm", ⟨seqs [lit "H100", many (· != '\n'), lit "HBM3"], 80, 132, 1590, 1980, 5, 70⟩),
   ("h800", ⟨seqs [lit "H800", many (· != '\n'), lit "PCIe"], 80, 114, 1095, 1755, 3, 75⟩),
   ("h20", ⟨seq (lit " H20") atEnd, 96, 78, 1590, 1980, 1, 300⟩),
   ("h200", ⟨lit " H200", 140, 132, 1590, 1980, 3, 70⟩),
   ("mi300x", ⟨lit "gfx942:sramecc", 192, 304, 1600, 2100, 2, 75⟩),
   ("b200", ⟨lit " B200", 192, 148, 1590, 1965, 2, 75⟩)]

end

/-- The two tables are of the same GPUs, with the same memory. -/
theorem gpuSpecs_memory : gpuSpecs.map (fun e => (e.1, e.2.memory)) =
    supportedGpuTable.map fun e => (e.1, e.2.memory) := rfl

/-- What a miner says of a GPU. -/
structure NodeArgs where
  uuid : String
  name : String
  memory : ℤ
  processors : ℤ
  clockRate : PyFloat
  gpuIdentifier : String
  verificationHost : String
  verificationPort : ℤ
  deriving DecidableEq

/-- What the constructor raises: `ValueError`s, but for the last. -/
inductive NodeError
  | model (name : String)
  | memory (gb : ℤ) (expected : ℕ) (key : String)
  | processors (found : ℤ) (expected : ℕ) (key : String)
  | clockRate (mhz : PyFloat) (base boost : ℕ) (key : String)
  | port (found : ℤ)
  | identifier (found key : String)
  /-- An `OverflowError`, of a memory that no float holds in gigabytes. -/
  | overflow
  deriving DecidableEq

/-- `f"{x:.0f}"`. -/
def fixed : PyFloat → String
  | .finite q => (if q < 0 then "-" else "") ++ toString (round |q| 0).num
  | .inf => "inf"
  | .negInf => "-inf"
  | .nan => "nan"

/-- What the exception says. -/
def NodeError.message : NodeError → String
  | .model name => s!"GPU model in name '{name}' not found in supported GPUs"
  | .memory gb expected key => s!"Memory {gb}GB does not match expected {expected}GB for {key}"
  | .processors found expected key =>
    s!"Processor count {found} does not match expected {expected} for {key}"
  | .clockRate mhz base boost key =>
    s!"Clock rate {fixed mhz}MHz not within expected range {base}-{boost}MHz for {key}"
  | .port found => s!"Invalid verification_port: {found}"
  | .identifier found key =>
    s!"GPU identifier {found} does not match model name identifier: {key}"
  | .overflow => "integer division result too large for a float"

/-- `int(memory / (1000 * 1000 * 1000))`. -/
def memoryGb (memory : ℤ) : Option ℤ :=
  match nearest (memory / 10 ^ 9) with
  | .finite q => some (if 0 ≤ q then ⌊q⌋ else -⌊-q⌋)
  | _ => none

/-- `clock_rate / 1000`. -/
def clockMhz : PyFloat → PyFloat
  | .finite rate => nearest (rate / 1000)
  | rate => rate

namespace GpuSpecs

/-- `expected_memory - 1 <= memory_gb <= expected_memory * (1024 / 1000) ** 3 + 1`;
no memory of the table is near an upper bound that is a whole number. -/
def hasMemory (specs : GpuSpecs) (gb : ℤ) : Bool :=
  (specs.memory : ℤ) - 1 ≤ gb && (gb : ℚ) ≤ specs.memory * (1024 / 1000) ^ 3 + 1

/-- `base_clock <= clock_mhz <= boost_clock * 1.1`, in floats. -/
def hasClock (specs : GpuSpecs) (mhz : PyFloat) : Bool :=
  match mhz, nearest (11 / 10) with
  | .finite mhz, .finite factor =>
    match nearest (specs.boostClock * factor) with
    | .finite bound => (specs.baseClock : ℚ) ≤ mhz && mhz ≤ bound
    | _ => false
  | _, _ => false

end GpuSpecs

section

variable (w : WordChars)

/-- `validate_gpu_model`, the first time: the first GPU whose check finds
something in the name. -/
def gpuKey (name : String) : Option (String × GpuSpecs) :=
  gpuSpecs.find? fun e => e.2.modelNameCheck.search w name

/-- **The checks of the constructor**, in the order in which the attributes
are set; the identifier is looked at last, once they are. -/
def validateAll (args : NodeArgs) : Except NodeError Unit :=
  match gpuKey w args.name with
  | none => .error (.model args.name)
  | some (key, specs) =>
    match memoryGb args.memory with
    | none => .error .overflow
    | some gb =>
      if ¬specs.hasMemory gb then .error (.memory gb specs.memory key)
      else if args.processors ≠ specs.processors then
        .error (.processors args.processors specs.processors key)
      else if ¬specs.hasClock (clockMhz args.clockRate) then
        .error (.clockRate (clockMhz args.clockRate) specs.baseClock specs.boostClock key)
      else if ¬(80 ≤ args.verificationPort ∧ args.verificationPort ≤ 65535) then
        .error (.port args.verificationPort)
      else if args.gpuIdentifier ≠ key then .error (.identifier args.gpuIdentifier key)
      else .ok ()

/-- **What the miner says is of one GPU that is known.** -/
structure Fits (args : NodeArgs) (specs : GpuSpecs) : Prop where
  known : gpuKey w args.name = some (args.gpuIdentifier, specs)
  memory : ∃ gb ∈ memoryGb args.memory, specs.hasMemory gb
  processors : args.processors = specs.processors
  clockRate : specs.hasClock (clockMhz args.clockRate)
  port : 80 ≤ args.verificationPort ∧ args.verificationPort ≤ 65535

variable {w} {args : NodeArgs}

/-- **The constructor returns exactly where what is said fits.** -/
theorem validateAll_eq_ok : validateAll w args = .ok () ↔ ∃ specs, Fits w args specs := by
  unfold validateAll
  constructor
  · intro h
    split at h
    · cases h
    · next key specs hkey =>
      split at h
      · cases h
      · next gb hgb =>
        split_ifs at h with hmem hproc hclock hport hid
        exact ⟨specs, by rw [hkey, not_not.1 hid], ⟨gb, hgb, hmem⟩, not_not.1 hproc,
          hclock, hport⟩
  · rintro ⟨specs, hkey, ⟨gb, hgb, hmem⟩, hproc, hclock, hport⟩
    rw [hkey]
    simp only
    rw [Option.mem_def.1 hgb]
    simp only
    rw [if_neg (not_not.2 hmem), if_neg (not_not.2 hproc), if_neg (not_not.2 hclock),
      if_neg (not_not.2 hport), if_neg (not_not.2 rfl)]

/-- A name is of one kind of GPU only, so what fits does so one way. -/
theorem Fits.unique {specs specs' : GpuSpecs} (h : Fits w args specs) (h' : Fits w args specs') :
    specs = specs' := by
  have heq := h.known.symm.trans h'.known
  exact (Prod.mk.inj (Option.some.inj heq)).2

end

end ChutesApi
