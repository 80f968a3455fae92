import Mathlib.Data.List.Infix
import Mathlib.Data.List.TakeWhile
/-!
# Paths

`os.path` on POSIX, over the list of a path's characters. A normalised
absolute path is a chain of names from the root (`AbsPath`), and what
`normpath` and `dirname` make of an absolute path is one. The string prefix of
such a path is not its prefix in the tree: `isPrefixOf_text` says that the
two differ at the siblings, whose name only begins with the last one.
-/

namespace ChutesApi

namespace Python

namespace Path

/-- `os.path.isabs`. -/
def isAbs (path : List Char) : Bool := ['/'].isPrefixOf path

/-- `os.path.join`. -/
def join (a p : List Char) : List Char :=
  if isAbs p then p
  else if a = [] ∨ a.getLast? = some '/' then a ++ p
  else a ++ '/' :: p

/-- POSIX keeps two slashes at the start, and takes three or more for one. -/
def initialSlashes (path : List Char) : ℕ :=
  if ['/', '/'].isPrefixOf path && !(['/', '/', '/'].isPrefixOf path) then 2
  else if isAbs path then 1 else 0

/-- One round of the loop over the components. -/
def pushComp (slashes : ℕ) (newComps : List (List Char)) (comp : List Char) : List (List Char) :=
  if comp = [] ∨ comp = ['.'] then newComps
  else if comp ≠ ['.', '.'] ∨ (slashes = 0 ∧ newComps = []) ∨
      newComps.getLast? = some ['.', '.'] then newComps ++ [comp]
  else newComps.dropLast

/-- **`os.path.normpath`.** -/
def normpath (path : List Char) : List Char :=
  if path = [] then ['.']
  else
    let slashes := initialSlashes path
    let comps := (path.splitOn '/').foldl (pushComp slashes) []
    let path := List.replicate slashes '/' ++ ['/'].intercalate comps
    if path = [] then ['.'] else path

/-- `os.path.abspath`, where `cwd` is the current directory. -/
def abspath (cwd path : List Char) : List Char :=
  normpath (if isAbs path then path else join cwd path)

/-- `os.path.dirname`. -/
def dirname (path : List Char) : List Char :=
  let head := (path.reverse.dropWhile (· ≠ '/')).reverse
  if head.any (· ≠ '/') then (head.reverse.dropWhile (· = '/')).reverse else head

/-! ## The tree -/

/-- The names on the way to a path that is normalised. -/
def names (path : List Char) : List (List Char) := (path.splitOn '/').filter (· ≠ [])

/-- **`target` is `base` or lies below it** in the tree. -/
def Contains (base target : List Char) : Prop := names base <+: names target

instance (base target : List Char) : Decidable (Contains base target) :=
  inferInstanceAs (Decidable (_ <+: _))

/-- `target` goes on where `base` ends, in the middle of a name. -/
def Sibling (base target : List Char) : Prop :=
  names base ≠ [] ∧ ∃ c rest, c ≠ '/' ∧ target = base ++ c :: rest

/-- A name that stands for itself. -/
structure IsName (name : List Char) : Prop where
  ne_nil : name ≠ []
  ne_dot : name ≠ ['.']
  ne_dots : name ≠ ['.', '.']
  slash : '/' ∉ name

/-- **A normalised absolute path.** -/
structure AbsPath where
  slashes : ℕ
  names : List (List Char)
  slashes_eq : slashes = 1 ∨ slashes = 2
  proper : ∀ name ∈ names, IsName name

def AbsPath.text (path : AbsPath) : List Char :=
  List.replicate path.slashes '/' ++ ['/'].intercalate path.names

variable {a b path base target : List Char} {comps : List (List Char)} {slashes : ℕ}

theorem names_append_slash (a b : List Char) : names (a ++ '/' :: b) = names a ++ names b := by
  rw [names, List.splitOn_append_cons_self, List.filter_append, names, names]

@[simp] theorem names_nil : names [] = [] := rfl

@[simp] theorem names_slash (path : List Char) : names ('/' :: path) = names path :=
  names_append_slash [] path

theorem names_replicate (n : ℕ) (path : List Char) :
    names (List.replicate n '/' ++ path) = names path := by
  induction n with
  | zero => rfl
  | succ n ih => rw [List.replicate_succ, List.cons_append, names_slash, ih]

theorem names_of_notMem (h : '/' ∉ a) (hne : a ≠ []) : names a = [a] := by
  rw [names, List.splitOn_eq_singleton h]
  simp [hne]

theorem names_intercalate (h : ∀ name ∈ comps, IsName name) :
    names (['/'].intercalate comps) = comps := by
  by_cases hnil : comps = []
  · rw [hnil]
    rfl
  · rw [names, List.splitOn_intercalate '/' (fun name hname => (h name hname).slash) hnil,
      List.filter_eq_self]
    intro name hname
    simpa using (h name hname).ne_nil

/-- **The names of a path are those it was put together from.** -/
@[simp] theorem AbsPath.names_text (path : AbsPath) : Path.names path.text = path.names := by
  rw [AbsPath.text, names_replicate, names_intercalate path.proper]

theorem AbsPath.slashes_pos (path : AbsPath) : 0 < path.slashes := by
  rcases path.slashes_eq with h | h
  · omega
  · omega

theorem AbsPath.isAbs_text (path : AbsPath) : isAbs path.text := by
  obtain ⟨n, hn⟩ := Nat.exists_eq_succ_of_ne_zero path.slashes_pos.ne'
  simp [isAbs, AbsPath.text, hn, List.replicate_succ]

/-! ## Normalisation -/

/-- A component has no slash. -/
theorem notMem_of_mem_splitOn {comp : List Char} (h : comp ∈ path.splitOn '/') : '/' ∉ comp := by
  induction path generalizing comp with
  | nil =>
    rw [List.splitOn_nil, List.mem_singleton] at h
    simp [h]
  | cons c cs ih =>
    rw [List.splitOn_cons_eq_if_modifyHead] at h
    split at h
    · rcases List.mem_cons.1 h with rfl | h
      · exact List.not_mem_nil
      · exact ih h
    · next hc =>
      obtain ⟨first, rest, hsplit⟩ := List.exists_cons_of_ne_nil (List.splitOn_ne_nil '/' cs)
      rw [hsplit, List.modifyHead_cons] at h
      rcases List.mem_cons.1 h with rfl | h
      · have hfirst : '/' ∉ first := ih (by simp [hsplit])
        have hne : c ≠ '/' := by simpa using hc
        simp [hfirst, hne.symm]
      · exact ih (by simp [hsplit, h])

/-- The loop of an absolute path only keeps names. -/
theorem isName_pushComp (hslashes : 0 < slashes) (h : ∀ name ∈ comps, IsName name)
    {comp : List Char} (hcomp : '/' ∉ comp) :
    ∀ name ∈ pushComp slashes comps comp, IsName name := by
  unfold pushComp
  split
  · exact h
  · next hskip =>
    push Not at hskip
    split
    · next hpush =>
      -- `..` would need one before it, and there is none
      have hdots : comp ≠ ['.', '.'] := by
        rcases hpush with hne | ⟨hzero, -⟩ | hlast
        · exact hne
        · omega
        · exact absurd rfl (h _ (List.mem_of_getLast? hlast)).ne_dots
      intro name hname
      rcases List.mem_append.1 hname with hname | hname
      · exact h name hname
      · rw [List.mem_singleton.1 hname]
        exact ⟨hskip.1, hskip.2, hdots, hcomp⟩
    · exact fun name hname => h name (List.mem_of_mem_dropLast hname)

theorem isName_foldl {l : List (List Char)} (hslashes : 0 < slashes) (hl : ∀ comp ∈ l, '/' ∉ comp)
    (h : ∀ name ∈ comps, IsName name) : ∀ name ∈ l.foldl (pushComp slashes) comps, IsName name := by
  induction l generalizing comps with
  | nil => exact h
  | cons comp l ih =>
    exact ih (fun c hc => hl c (List.mem_cons_of_mem _ hc))
      (isName_pushComp hslashes h (hl comp List.mem_cons_self))

theorem initialSlashes_eq (h : isAbs path) : initialSlashes path = 1 ∨ initialSlashes path = 2 := by
  unfold initialSlashes
  split
  · exact .inr rfl
  · exact .inl rfl

/-- **An absolute path is normalised to one.** -/
theorem exists_normpath (h : isAbs path) : ∃ p : AbsPath, normpath path = p.text := by
  have hslashes := initialSlashes_eq h
  let p : AbsPath :=
    { slashes := initialSlashes path
      names := (path.splitOn '/').foldl (pushComp (initialSlashes path)) []
      slashes_eq := hslashes
      proper := isName_foldl (by omega) (fun _ => notMem_of_mem_splitOn) (by simp) }
  have hne : path ≠ [] := by
    rintro rfl
    exact absurd h (by decide)
  have htext : p.text ≠ [] := by
    intro hnil
    have habs := p.isAbs_text
    rw [hnil] at habs
    exact absurd habs (by decide)
  refine ⟨p, ?_⟩
  unfold normpath
  rw [if_neg hne]
  exact if_neg htext

theorem isAbs_append (h : isAbs a) (b : List Char) : isAbs (a ++ b) := by
  simp only [isAbs, List.isPrefixOf_iff_prefix] at h ⊢
  exact h.trans (List.prefix_append a b)

theorem isAbs_join (h : isAbs a) (b : List Char) : isAbs (join a b) := by
  unfold join
  split
  · assumption
  · split
    · exact isAbs_append h b
    · exact isAbs_append h _

theorem exists_abspath {cwd : List Char} (h : isAbs cwd) (path : List Char) :
    ∃ p : AbsPath, abspath cwd path = p.text := by
  unfold abspath
  by_cases hpath : isAbs path
  · rw [if_pos hpath]
    exact exists_normpath hpath
  · rw [if_neg hpath]
    exact exists_normpath (isAbs_join h path)

/-! ## The last name -/

theorem intercalate_concat (comps : List (List Char)) (name : List Char) :
    ['/'].intercalate (comps ++ [name]) =
      (if comps = [] then [] else ['/'].intercalate comps ++ ['/']) ++ name := by
  induction comps with
  | nil => simp
  | cons comp comps ih =>
    rcases comps with _ | ⟨comp', comps⟩
    · simp
    · rw [List.cons_append, List.cons_append, List.intercalate_cons_cons, ← List.cons_append, ih,
        List.intercalate_cons_cons]
      simp

/-- A path that is not the root ends with its last name, which a slash is in
front of. -/
theorem AbsPath.exists_last (path : AbsPath) {before : List (List Char)} {last : List Char}
    (h : path.names = before ++ [last]) : ∃ parent, path.text = parent ++ '/' :: last ∧
      Path.names parent = before ∧ parent = List.replicate (if before = [] then path.slashes - 1
        else path.slashes) '/' ++ ['/'].intercalate before := by
  have hproper : ∀ name ∈ before, IsName name := fun name hname =>
    path.proper name (by simp [h, hname])
  refine ⟨_, ?_, by rw [names_replicate, names_intercalate hproper], rfl⟩
  rw [AbsPath.text, h, intercalate_concat]
  by_cases hnil : before = []
  · obtain ⟨n, hn⟩ := Nat.exists_eq_succ_of_ne_zero path.slashes_pos.ne'
    simp [hnil, hn, List.replicate_succ']
  · simp [hnil]

/-- What the directory of a path is, above its last name. -/
theorem dirname_append (parent : List Char) {last : List Char} (h : '/' ∉ last) :
    dirname (parent ++ '/' :: last) =
      if parent.any (· ≠ '/') then (parent.reverse.dropWhile (· = '/')).reverse
      else parent ++ ['/'] := by
  have hlast : ∀ c ∈ last.reverse, (decide (c ≠ '/')) = true := by
    intro c hc
    rw [decide_eq_true_eq]
    rintro rfl
    exact h (List.mem_reverse.1 hc)
  have hhead : ((parent ++ '/' :: last).reverse.dropWhile (· ≠ '/')).reverse = parent ++ ['/'] := by
    rw [List.reverse_append, List.reverse_cons, List.append_assoc,
      List.dropWhile_append_of_pos hlast]
    simp
  unfold dirname
  rw [hhead]
  simp

theorem dropWhile_reverse_intercalate {n : ℕ} (h : ∀ name ∈ comps, IsName name) (hne : comps ≠ []) :
    ((List.replicate n '/' ++ ['/'].intercalate comps).reverse.dropWhile (· = '/')).reverse =
      List.replicate n '/' ++ ['/'].intercalate comps ∧
    (List.replicate n '/' ++ ['/'].intercalate comps).any (· ≠ '/') := by
  obtain ⟨before, last, rfl⟩ := List.eq_nil_or_concat'  comps |>.resolve_left hne
  have hlast := h last (by simp)
  obtain ⟨init, c, rfl⟩ := List.eq_nil_or_concat' last |>.resolve_left hlast.ne_nil
  have hc : c ≠ '/' := by
    rintro rfl
    exact hlast.slash (by simp)
  rw [intercalate_concat, ← List.append_assoc, ← List.append_assoc]
  constructor
  · simp [hc]
  · simp [hc]

/-- **The directory of a path is its parent**, and the root its own. -/
theorem exists_dirname (path : AbsPath) :
    ∃ p : AbsPath, dirname path.text = p.text ∧ p.names = path.names.dropLast := by
  rcases List.eq_nil_or_concat' path.names with hnil | ⟨before, last, hnames⟩
  · refine ⟨path, ?_, by simp [hnil]⟩
    obtain ⟨n, hn⟩ := Nat.exists_eq_succ_of_ne_zero path.slashes_pos.ne'
    have htext : path.text = List.replicate n '/' ++ '/' :: [] := by
      simp [AbsPath.text, hnil, hn, List.replicate_succ']
    rw [htext, dirname_append _ List.not_mem_nil]
    simp
  · have hproper : ∀ name ∈ before, IsName name := fun name hname =>
      path.proper name (by simp [hnames, hname])
    have hlast : '/' ∉ last := (path.proper last (by simp [hnames])).slash
    obtain ⟨parent, htext, -, hparent⟩ := path.exists_last hnames
    refine ⟨⟨path.slashes, before, path.slashes_eq, hproper⟩, ?_, by simp [hnames]⟩
    rw [htext, dirname_append parent hlast, AbsPath.text, hparent]
    by_cases hnil : before = []
    · obtain ⟨n, hn⟩ := Nat.exists_eq_succ_of_ne_zero path.slashes_pos.ne'
      simp [hnil, hn, List.replicate_succ']
    · obtain ⟨hstrip, hany⟩ := dropWhile_reverse_intercalate (n := path.slashes) hproper hnil
      rw [if_neg hnil, if_pos hany, hstrip]

/-! ## String prefixes and the tree -/

/-- The first name of a text that does not start with a slash. -/
theorem exists_names_eq_cons (h : path.takeWhile (· ≠ '/') ≠ []) :
    ∃ rest, names path = path.takeWhile (· ≠ '/') :: rest := by
  have hname : '/' ∉ path.takeWhile (· ≠ '/') := fun hmem => by
    simpa using List.mem_takeWhile_imp hmem
  have hsplit := List.takeWhile_append_dropWhile (p := (· ≠ '/')) (l := path)
  rcases hrest : path.dropWhile (· ≠ '/') with _ | ⟨c, rest⟩
  · rw [hrest, List.append_nil] at hsplit
    refine ⟨[], ?_⟩
    conv_lhs => rw [← hsplit]
    exact names_of_notMem hname h
  · have hc : c = '/' := by
      have hhead := List.head?_dropWhile_not (· ≠ '/') path
      rw [hrest] at hhead
      simpa using hhead
    rw [hrest, hc] at hsplit
    refine ⟨names rest, ?_⟩
    conv_lhs => rw [← hsplit]
    rw [names_append_slash, names_of_notMem hname h]
    rfl

/-- **A string prefix is one in the tree unless it is a sibling.** -/
theorem contains_iff (base target : AbsPath) (h : base.text.isPrefixOf target.text) :
    Contains base.text target.text ↔ ¬Sibling base.text target.text := by
  rw [List.isPrefixOf_iff_prefix] at h
  obtain ⟨more, hmore⟩ := h
  constructor
  · rintro hcontains ⟨hnames, c, rest, hc, hrest⟩
    rw [AbsPath.names_text] at hnames
    obtain ⟨before, last, hlast⟩ := List.eq_nil_or_concat' base.names |>.resolve_left hnames
    have hslash : '/' ∉ last := (base.proper last (by simp [hlast])).slash
    obtain ⟨parent, htext, hparent, -⟩ := base.exists_last hlast
    -- the target has a longer name where the base has its last one
    have hword : (last ++ c :: rest).takeWhile (· ≠ '/') =
        last ++ c :: rest.takeWhile (· ≠ '/') := by
      rw [List.takeWhile_append_of_pos, List.takeWhile_cons_of_pos (by simpa using hc)]
      intro a ha
      rw [decide_eq_true_eq]
      rintro rfl
      exact hslash ha
    have hne : (last ++ c :: rest).takeWhile (· ≠ '/') ≠ [] := by
      rw [hword]
      simp
    obtain ⟨others, hothers⟩ := exists_names_eq_cons hne
    have hbase : names base.text = before ++ [last] := by rw [AbsPath.names_text, hlast]
    have htarget : names target.text =
        before ++ (last ++ c :: rest.takeWhile (· ≠ '/')) :: others := by
      rw [hrest, htext, List.append_assoc, List.cons_append, names_append_slash, hparent, hothers,
        hword]
    rw [Contains, hbase, htarget, List.prefix_append_right_inj, List.cons_prefix_cons] at hcontains
    have hlength := congrArg List.length hcontains.1
    simp at hlength
  · intro hsibling
    by_cases hroot : names base.text = []
    · rw [Contains, hroot]
      exact List.nil_prefix
    · rcases more with _ | ⟨c, rest⟩
      · rw [Contains, ← hmore, List.append_nil]
      · have hc : c = '/' := by
          by_contra hne
          exact hsibling ⟨hroot, c, rest, hne, hmore.symm⟩
        rw [Contains, ← hmore, hc, names_append_slash]
        exact List.prefix_append _ _

end Path

end Python

end ChutesApi
