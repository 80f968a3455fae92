import ChutesApi.Python.Exc
import ChutesApi.Python.Path
/-!
# The extraction of a build context

`safe_extract` of the image forge compares the path of each member of an
archive with the directory of the archive, as strings. `extractsSafely_iff`
says for which archives nothing outside the directory is extracted, and an
archive that has such a member is refused: a sibling of the directory, whose
name begins with that of the directory, is extracted as well.
-/

namespace ChutesApi

namespace Forge

open Python

/-- **An open archive.** What the extraction of a member raises, if it does,
may depend on the members that were extracted before. -/
structure Archive where
  namelist : List String
  extract : List String → String → Option PyError

inductive ForgeError
  | unsafeExtraction (message : String)
  | zipfile (error : PyError)
  deriving DecidableEq

/-- The members that `zip_ref.extract` was called for, and what was raised. -/
structure Extraction where
  extracted : List String
  raised : Option ForgeError
  deriving DecidableEq

def targetPath (baseDir : List Char) (member : String) : List Char :=
  Path.normpath (Path.join baseDir member.toList)

/-- The loop over the members. -/
def extractMembers (archive : Archive) (baseDir : List Char) (extracted : List String) :
    List String → Extraction
  | [] => ⟨extracted, none⟩
  | member :: members =>
    if !baseDir.isPrefixOf (targetPath baseDir member) then
      ⟨extracted, some (.unsafeExtraction s!"Unsafe path detected: {member}")⟩
    else
      match archive.extract extracted member with
      | some error => ⟨extracted ++ [member], some (.zipfile error)⟩
      | none => extractMembers archive baseDir (extracted ++ [member]) members

/-- The current directory. -/
abbrev Cwd := { cwd : String // Path.isAbs cwd.toList }

def baseDir (cwd : Cwd) (zipPath : String) : List Char :=
  Path.dirname (Path.abspath cwd.1.toList zipPath.toList)

/-- **`safe_extract`.** -/
def safeExtract (cwd : Cwd) (zipPath : String) (archive : Archive) : Extraction :=
  extractMembers archive (baseDir cwd zipPath) [] archive.namelist

/-! ## The directory -/

variable {archive : Archive} {base : List Char} {cwd : Cwd} {zipPath member : String}
variable {extracted members before rest : List String}

/-- A member is in the directory, or is the directory. -/
def Inside (base : List Char) (member : String) : Prop :=
  Path.Contains base (targetPath base member)

instance : Decidable (Inside base member) := inferInstanceAs (Decidable (Path.Contains _ _))

/-- A member passes the comparison. -/
def Accepted (base : List Char) (member : String) : Prop :=
  base.isPrefixOf (targetPath base member)

/-- A member is beside the directory, under a name that begins with the name
of the directory. -/
def Beside (base : List Char) (member : String) : Prop := Path.Sibling base (targetPath base member)

/-- **What an extraction is meant to be.** -/
structure ExtractsSafely (cwd : Cwd) (zipPath : String) (archive : Archive) : Prop where
  only : ∀ member ∈ (safeExtract cwd zipPath archive).extracted, Inside (baseDir cwd zipPath) member
  raises : (∃ member ∈ archive.namelist, ¬Inside (baseDir cwd zipPath) member) →
    ∃ message, (safeExtract cwd zipPath archive).raised = some (.unsafeExtraction message)

/-- The members pass the comparison and are extracted, one after the other. -/
def Passes (archive : Archive) (base : List Char) (extracted : List String) : List String → Prop
  | [] => True
  | member :: members => Accepted base member ∧ archive.extract extracted member = none ∧
      Passes archive base (extracted ++ [member]) members

/-- **The condition on the archive**: there is no member outside, or one that
is refused comes after members that are extracted and not beside the
directory. -/
def Archive.Guarded (archive : Archive) (base : List Char) : Prop :=
  (∀ member ∈ archive.namelist, Inside base member) ∨
    ∃ before member after, archive.namelist = before ++ member :: after ∧
      Passes archive base [] before ∧ (∀ m ∈ before, ¬Beside base m) ∧ ¬Accepted base member

/-- **What passes the comparison** is inside unless it is beside. -/
theorem inside_iff (h : Accepted (baseDir cwd zipPath) member) :
    Inside (baseDir cwd zipPath) member ↔ ¬Beside (baseDir cwd zipPath) member := by
  obtain ⟨zip, hzip⟩ := Path.exists_abspath cwd.2 zipPath.toList
  obtain ⟨dir, hdir, -⟩ := Path.exists_dirname zip
  have hbase : baseDir cwd zipPath = dir.text := by rw [baseDir, hzip, hdir]
  rw [hbase] at h ⊢
  obtain ⟨target, htarget⟩ := Path.exists_normpath (Path.isAbs_join dir.isAbs_text member.toList)
  unfold Accepted Inside Beside targetPath at *
  rw [htarget] at h ⊢
  exact Path.contains_iff dir target h

/-! ## The loop -/

theorem Passes.accepted (h : Passes archive base extracted members) (hm : member ∈ members) :
    Accepted base member := by
  induction members generalizing extracted with
  | nil => exact nomatch hm
  | cons m members ih =>
    obtain ⟨haccepted, -, hrest⟩ := h
    rcases List.mem_cons.1 hm with rfl | hm
    · exact haccepted
    · exact ih hrest hm

/-- The loop over members that pass. -/
theorem extractMembers_append (h : Passes archive base extracted before) :
    extractMembers archive base extracted (before ++ rest) =
      extractMembers archive base (extracted ++ before) rest := by
  induction before generalizing extracted with
  | nil => simp
  | cons m before ih =>
    obtain ⟨haccepted, hextract, hrest⟩ := h
    have haccepted' : (!base.isPrefixOf (targetPath base m)) = false := by
      rw [Bool.not_eq_false']
      exact haccepted
    rw [List.cons_append, extractMembers, haccepted', hextract]
    exact (ih hrest).trans (by rw [List.append_assoc, List.singleton_append])

/-- The loop gets to a member that it raises at, or to the end. -/
theorem exists_passes (archive : Archive) (base : List Char) (extracted members : List String) :
    ∃ before rest, members = before ++ rest ∧ Passes archive base extracted before ∧
      ∀ member after, rest = member :: after →
        ¬Accepted base member ∨ archive.extract (extracted ++ before) member ≠ none := by
  induction members generalizing extracted with
  | nil => exact ⟨[], [], rfl, trivial, nofun⟩
  | cons m members ih =>
    by_cases hm : Accepted base m ∧ archive.extract extracted m = none
    · obtain ⟨before, rest, rfl, hpasses, hstop⟩ := ih (extracted ++ [m])
      refine ⟨m :: before, rest, rfl, ⟨hm.1, hm.2, hpasses⟩, ?_⟩
      rwa [List.append_assoc, List.singleton_append] at hstop
    · refine ⟨[], m :: members, rfl, trivial, fun member after heq => ?_⟩
      obtain ⟨rfl, rfl⟩ := List.cons.inj heq
      rw [List.append_nil]
      exact not_and_or.1 hm

theorem extractMembers_refused (h : ¬Accepted base member) :
    extractMembers archive base extracted (member :: rest) =
      ⟨extracted, some (.unsafeExtraction s!"Unsafe path detected: {member}")⟩ := by
  have hrefused : (!base.isPrefixOf (targetPath base member)) = true := by
    rw [Bool.not_eq_true']
    exact Bool.not_eq_true _ ▸ h
  rw [extractMembers, if_pos hrefused]

theorem extractMembers_raises {error : PyError} (h : Accepted base member)
    (hextract : archive.extract extracted member = some error) :
    extractMembers archive base extracted (member :: rest) =
      ⟨extracted ++ [member], some (.zipfile error)⟩ := by
  have haccepted : (!base.isPrefixOf (targetPath base member)) = false := by
    rw [Bool.not_eq_false']
    exact h
  rw [extractMembers, haccepted, hextract]
  rfl

/-- **What the loop comes to**: it ends, is refused a member, or one is not
extracted. -/
theorem extractMembers_cases (archive : Archive) (base : List Char) (members : List String) :
    ∃ before, Passes archive base [] before ∧
      ((members = before ∧ extractMembers archive base [] members = ⟨before, none⟩) ∨
        ∃ member after, members = before ++ member :: after ∧
          ((¬Accepted base member ∧ extractMembers archive base [] members =
              ⟨before, some (.unsafeExtraction s!"Unsafe path detected: {member}")⟩) ∨
            ∃ error, extractMembers archive base [] members =
              ⟨before ++ [member], some (.zipfile error)⟩)) := by
  obtain ⟨before, rest, rfl, hpasses, hstop⟩ := exists_passes archive base [] members
  refine ⟨before, hpasses, ?_⟩
  rw [extractMembers_append hpasses, List.nil_append]
  rcases rest with _ | ⟨member, after⟩
  · exact .inl ⟨List.append_nil _, rfl⟩
  · refine .inr ⟨member, after, rfl, ?_⟩
    by_cases haccepted : Accepted base member
    · obtain ⟨error, herror⟩ := Option.ne_none_iff_exists'.1
        ((hstop member after rfl).resolve_left (not_not_intro haccepted))
      exact .inr ⟨error, extractMembers_raises haccepted herror⟩
    · exact .inl ⟨haccepted, extractMembers_refused haccepted⟩

theorem mem_of_extracted (h : member ∈ (extractMembers archive base [] members).extracted) :
    member ∈ members := by
  obtain ⟨before, -, ⟨rfl, hrun⟩ | ⟨m, after, rfl, ⟨-, hrun⟩ | ⟨error, hrun⟩⟩⟩ :=
    extractMembers_cases archive base members
  · rwa [hrun] at h
  · rw [hrun] at h
    exact List.mem_append_left _ h
  · rw [hrun] at h
    rcases List.mem_append.1 h with h | h
    · exact List.mem_append_left _ h
    · exact List.mem_append_right _ (List.mem_singleton.1 h ▸ List.mem_cons_self)

/-- **An archive is extracted safely exactly if it is guarded.** -/
theorem extractsSafely_iff (cwd : Cwd) (zipPath : String) (archive : Archive) :
    ExtractsSafely cwd zipPath archive ↔ archive.Guarded (baseDir cwd zipPath) := by
  constructor
  · intro h
    by_cases hall : ∀ member ∈ archive.namelist, Inside (baseDir cwd zipPath) member
    · exact .inl hall
    push Not at hall
    obtain ⟨message, hmessage⟩ := h.raises hall
    have honly := h.only
    unfold safeExtract at hmessage honly
    obtain ⟨before, hpasses,
        ⟨-, hrun⟩ | ⟨member, after, hlist, ⟨hrefused, hrun⟩ | ⟨error, hrun⟩⟩⟩ :=
      extractMembers_cases archive (baseDir cwd zipPath) archive.namelist
    · rw [hrun] at hmessage
      exact nomatch hmessage
    · rw [hrun] at honly
      exact .inr ⟨before, member, after, hlist, hpasses,
        fun m hm => (inside_iff (hpasses.accepted hm)).1 (honly m hm), hrefused⟩
    · rw [hrun] at hmessage
      exact nomatch hmessage
  · rintro (hall | ⟨before, member, after, hlist, hpasses, hbeside, hrefused⟩)
    · refine ⟨fun member hmember => hall member (mem_of_extracted hmember), ?_⟩
      rintro ⟨member, hmember, houtside⟩
      exact absurd (hall member hmember) houtside
    · have hrun : safeExtract cwd zipPath archive =
          ⟨before, some (.unsafeExtraction s!"Unsafe path detected: {member}")⟩ := by
        rw [safeExtract, hlist, extractMembers_append hpasses, List.nil_append,
          extractMembers_refused hrefused]
      refine ⟨?_, fun _ => ⟨_, by rw [hrun]⟩⟩
      rw [hrun]
      exact fun m hm => (inside_iff (hpasses.accepted hm)).2 (hbeside m hm)

/-- An archive in `/tmp/build` with a member of `/tmp/build2`. -/
def siblingArchive : Archive := ⟨["../build2/x"], fun _ _ => none⟩

/-- **Not every archive is extracted safely.** -/
theorem not_extractsSafely :
    ¬ExtractsSafely ⟨"/", by decide⟩ "/tmp/build/chute.zip" siblingArchive := by
  intro h
  have hinside := h.only "../build2/x" (by decide)
  revert hinside
  decide

end Forge

end ChutesApi
