import ChutesApi.Python.Str
/-!
# Path templates

The templates of a web framework's routes: a path is taken apart at its
slashes and matched part by part. A template stands for the regular expression
that it is compiled to, whose final `$` also matches before a line feed.
-/

namespace ChutesApi

namespace Python

/-- A part of a template: a text, `{name}`, `{name}.{ext}` or `{name:path}`. -/
inductive PathPart
  | literal (text : String)
  | param (name : String)
  | dotted (name ext : String)
  | rest (name : String)
  deriving DecidableEq, Repr

/-- What the parameters of a template are bound to. -/
abbrev PathParams := List (String × String)

/-- The last dot that has something behind it. -/
def splitDot : List Char → Option (List Char × List Char)
  | [] => none
  | c :: cs =>
    match splitDot cs with
    | some (name, ext) => some (c :: name, ext)
    | none => if c = '.' ∧ cs ≠ [] then some ([], cs) else none

/-- **A path's parts against a template's.** -/
def matchParts : List PathPart → List String → Option PathParams
  | [], segments => if segments = [] then some [] else none
  | _ :: _, [] => none
  | .literal text :: parts, segment :: segments =>
    if segment = text ∨ (segments = [] ∧ segment = text ++ "\n") then matchParts parts segments
    else none
  | .param name :: parts, segment :: segments =>
    if segment = "" then none else (matchParts parts segments).map ((name, segment) :: ·)
  | .dotted name ext :: parts, segment :: segments =>
    match splitDot segment.toList with
    | some (a, b) =>
      if a = [] then none
      else (matchParts parts segments).map fun params =>
        (name, String.ofList a) :: (ext, .ofList b) :: params
    | none => none
  | .rest name :: _, segment :: segments =>
    (beforeEnd (join '/' (segment :: segments))).map fun value => [(name, value)]

/-- A path that starts with a slash against a template. -/
def matchPath (parts : List PathPart) (path : String) : Option PathParams :=
  matchParts (.literal "" :: parts) (split path '/')

theorem append_splitDot {l a b : List Char} (h : splitDot l = some (a, b)) : l = a ++ '.' :: b := by
  induction l generalizing a with
  | nil => cases h
  | cons c cs ih =>
    rw [splitDot] at h
    split at h
    · rename_i name ext hcs
      obtain ⟨rfl, rfl⟩ := Prod.mk.inj (Option.some.inj h)
      rw [ih hcs, List.cons_append]
    · split at h
      · rename_i hc
        obtain ⟨rfl, rfl⟩ := Prod.mk.inj (Option.some.inj h)
        rw [hc.1, List.nil_append]
      · cases h

theorem of_beforeEnd {s value : String} (h : beforeEnd s = some value) :
    s = value ∨ s = value ++ "\n" := by
  unfold beforeEnd at h
  by_cases hlast : s.toList.getLast? = some '\n'
  · rw [if_pos hlast] at h
    obtain rfl := Option.some.inj (Option.ite_none_left_eq_some.1 h).2
    refine .inr (String.toList_injective ?_)
    rw [String.toList_append, String.toList_ofList]
    obtain ⟨ys, hys⟩ := List.getLast?_eq_some_iff.1 hlast
    rw [hys, List.dropLast_concat]
    rfl
  · rw [if_neg hlast] at h
    obtain rfl := Option.some.inj (Option.ite_none_left_eq_some.1 h).2
    exact .inl (String.toList_injective (by rw [String.toList_ofList]))

example : matchPath [.literal "chutes", .literal "miner_means", .dotted "chute_id" "ext"]
    "/chutes/miner_means/a.b.csv" = some [("chute_id", "a.b"), ("ext", "csv")] := by
  decide +kernel

end Python

end ChutesApi
