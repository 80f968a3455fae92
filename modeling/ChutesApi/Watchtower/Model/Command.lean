import ChutesApi.Chute.Version
import ChutesApi.Python.Bytes
import ChutesApi.Python.Substitute
/-!
# The command of an instance

`verify_expected_command` checks the first process of a dump, and
`check_live_code` the command line that an instance is asked for. Both take
the directories and the version of the interpreter out of it, those of
`chutes` as well, and compare what is left with `get_expected_command`.
-/

namespace ChutesApi

namespace Watchtower

namespace Command

open Python ChutesVersion

/-! ## Versions -/

/-- `[0-9]+`, and what follows. -/
def digits (s : List Char) : Option (List Char × List Char) :=
  if s.takeWhile isDecimal = [] then none
  else some (s.takeWhile isDecimal, s.dropWhile isDecimal)

def dot : List Char → Option (List Char)
  | '.' :: s => some s
  | _ => none

/-- The numbers of `re.match(r"^([0-9]+\.[0-9]+\.[0-9]+).*", s).group(1)`. -/
def cleanVersion (s : String) : Option (List (List Char)) := do
  let (major, s) ← digits s.toList
  let (minor, s) ← digits (← dot s)
  let (patch, _) ← digits (← dot s)
  return [major, minor, patch]

/-- A number of a version, as `semver` reads it: without leading zeros. -/
def semverNumber (s : List Char) : Except Exc ℕ :=
  if s.head? = some '0' ∧ s ≠ ['0'] then .error (.raised .valueError)
  else number (.ofList s)

/-- **`semcomp`.** -/
def semcomp (inputVersion : Option String) (target : Version) : Except Exc Ordering :=
  match cleanVersion (if truthy inputVersion then format inputVersion else "0.0.0") with
  | some [major, minor, patch] => do
    let major ← semverNumber major
    let minor ← semverNumber minor
    let patch ← semverNumber patch
    return (compare major target.major).then
      ((compare minor target.minor).then (compare patch target.bug))
  | _ => .error (.raised .attributeError)

/-! ## The command that is expected -/

structure Settings where
  validatorSs58 : String

structure Chute where
  chutesVersion : Option String
  refStr : String
  code : String

/-- `str(seed)`. -/
def strSeed : Option ℤ → String
  | none => "None"
  | some n => toString n

/-- The parts that `get_expected_command` joins. -/
def commandParts (settings : Settings) (chute : Chute) (minerHotkey : String) (seed : Option ℤ)
    (tls : Bool) : Except Exc (List String) := do
  -- `or "0.0.0"` is what `semcomp` makes of no version as well
  if (← semcomp chute.chutesVersion ⟨0, 3, 0⟩) ≠ .lt then
    return ["python", "chutes", "run", chute.refStr, "--port", "8000", "--miner-ss58", minerHotkey,
      "--validator-ss58", settings.validatorSs58] ++
      if tls then ["--keyfile", "/app/.chutetls/key.pem", "--certfile", "/app/.chutetls/cert.pem"]
      else []
  return ["python", "chutes", "run", chute.refStr, "--port", "8000", "--graval-seed", strSeed seed,
    "--miner-ss58", minerHotkey, "--validator-ss58", settings.validatorSs58]

/-- **`get_expected_command`.** -/
def getExpectedCommand (settings : Settings) (chute : Chute) (minerHotkey : String)
    (seed : Option ℤ) (tls : Bool) : Except Exc String :=
  (commandParts settings chute minerHotkey seed tls).map fun parts => trim (join ' ' parts)

/-! ## The command that there is -/

section Patterns

open Regex

/-- `([^ ]+/)?` -/
def directoryPattern : Regex := opt (seq (many1 (· != ' ')) (char (· == '/')))

/-- `3?(\.[0-9]+)?` -/
def versionPattern : Regex :=
  seq (opt (char (· == '3'))) (opt (seq (char (· == '.')) (many1 isDecimal)))

/-- `([^ ]+/)?python3?(\.[0-9]+)?` -/
def pythonPattern : Regex :=
  seq directoryPattern (seq (text "python".toList) versionPattern)

/-- `([^ ]+/)?chutes\b` -/
def chutesPattern : Regex := seq directoryPattern (seq (text "chutes".toList) wordBound)

end Patterns

structure Process where
  pid : ℤ
  username : String
  cmdline : String

inductive CommandError
  | raised (e : Exc)
  | indexError
  | assertion (message : String)

/-- **`verify_expected_command`.** -/
def verifyExpectedCommand (w : WordChars) (settings : Settings) (allProcesses : List Process)
    (chute : Chute) (minerHotkey : String) (seed : Option ℤ) (tls : Bool) :
    Except CommandError Unit :=
  match allProcesses with
  | [] => .error .indexError
  | process :: _ =>
    if process.pid ≠ 1 then .error (.assertion "Failed to find chutes comman as PID 1")
    else if process.username ≠ "chutes" then .error (.assertion "Not running as chutes user")
    else
      let commandLine := trim (pythonPattern.sub w "python" process.cmdline)
      let commandLine := chutesPattern.sub w "chutes" commandLine
      match getExpectedCommand settings chute minerHotkey seed tls with
      | .error e => .error (.raised e)
      | .ok expected =>
        if commandLine = expected then .ok ()
        else
          let found := Python.repr commandLine
          let wanted := Python.repr expected
          .error (.assertion s!"Unexpected command: command_line={found} vs expected={wanted}")

/-- `s.replace("\x00", " ")`. -/
def replaceNul (s : String) : String :=
  .ofList (s.toList.map fun c => if c.toNat = 0 then ' ' else c)

/-- `seed`, of the first node; new chutes are run without one. -/
def liveSeed (chute : Chute) (seeds : List (Option ℤ)) : Except Exc (Option ℤ) := do
  if (← semcomp chute.chutesVersion ⟨0, 3, 0⟩) ≠ .lt then
    return none
  match seeds with
  | seed :: _ => return seed
  | [] => throw (.raised .other)

/-- **`check_live_code`**, by what the instance answers: its `/proc/1/cmdline`
and its file with the code. -/
def checkLiveCode (w : WordChars) (settings : Settings) (chute : Chute) (minerHotkey : String)
    (seeds : List (Option ℤ)) (data code : Option (List UInt8)) : Except Exc Bool :=
  match data with
  | none | some [] => .ok false
  | some data => do
    let commandLine := trim (replaceNul (← decodeUtf8 data))
    let commandLine := pythonPattern.sub w "python" (trim commandLine)
    let commandLine := chutesPattern.sub w "chutes" commandLine
    let seed ← liveSeed chute seeds
    if commandLine ≠ (← getExpectedCommand settings chute minerHotkey seed false) then
      return false
    return code = some (utf8 chute.code)

end Command

end Watchtower

end ChutesApi
