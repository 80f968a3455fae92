import ChutesApi.Python.Regex
import Mathlib.Data.List.DropRight
/-!
# Substitution

What `re.sub` makes of a text, for a pattern that takes at least one
character: some characters are kept, and matches replaced (`subst_subFrom`).
Where the pattern keeps off a separator, what it makes of the two parts is
joined as they were (`subFrom_append_cons`). The rules about `Subst` read what
has come out backwards.
-/

namespace ChutesApi

namespace Python

/-! ## Parts of a text -/

section Parts

variable {α : Type*} {x a b : List α} {c : α}

/-- Nothing without the separator is across it. -/
theorem infix_of_append_cons (hc : c ∉ x) (h : x <:+: a ++ c :: b) : x <:+: a ∨ x <:+: b := by
  obtain ⟨u, v, huv⟩ := h
  rw [List.append_assoc] at huv
  rcases List.append_eq_append_iff.1 huv with ⟨u', rfl, htail⟩ | ⟨a', rfl, htail⟩
  · -- `x` starts in front of the separator, so it ends there
    rcases List.append_eq_append_iff.1 htail with ⟨z, rfl, -⟩ | ⟨z, hx, hz⟩
    · exact .inl ⟨u, z, by rw [List.append_assoc]⟩
    · rcases z with _ | ⟨d, z⟩
      · rw [List.append_nil] at hx
        exact .inl ⟨u, [], by rw [hx, List.append_nil]⟩
      · obtain ⟨rfl, -⟩ := List.cons.inj hz
        rw [hx] at hc
        exact absurd (List.mem_append_right _ List.mem_cons_self) hc
  · rcases a' with _ | ⟨d, a'⟩
    · rw [List.nil_append] at htail
      rcases x with _ | ⟨d, x⟩
      · exact .inl (List.nil_infix)
      · obtain ⟨rfl, -⟩ := List.cons.inj htail
        exact absurd List.mem_cons_self hc
    · obtain ⟨-, htail⟩ := List.cons.inj htail
      exact .inr ⟨a', v, by rw [htail, List.append_assoc, List.append_eq]⟩

/-- What is in a joined text without the separator is in one of the parts. -/
theorem exists_of_infix_intercalate {l : List (List α)} (hc : c ∉ x) (hx : x ≠ [])
    (h : x <:+: [c].intercalate l) : ∃ part ∈ l, x <:+: part := by
  induction l with
  | nil => exact absurd (List.infix_nil.1 h) hx
  | cons part l ih =>
    rcases l with _ | ⟨part', l⟩
    · rw [List.intercalate_singleton] at h
      exact ⟨part, List.mem_singleton_self part, h⟩
    · rw [List.intercalate_cons_cons, List.append_assoc, List.singleton_append] at h
      rcases infix_of_append_cons hc h with h | h
      · exact ⟨part, List.mem_cons_self, h⟩
      · obtain ⟨other, hmem, hother⟩ := ih h
        exact ⟨other, List.mem_cons_of_mem part hmem, hother⟩

/-- A text has a first place of a character that is in it. -/
theorem exists_first (h : c ∈ x) : ∃ u v, x = u ++ c :: v ∧ c ∉ u := by
  obtain ⟨u, v, hx, hu⟩ := List.eq_append_cons_of_mem h
  exact ⟨u, v, hx, hu⟩

end Parts

/-! ## Spaces -/

/-- The characters that `str.strip` removes, of any text. -/
def isWhitespace (c : Char) : Bool :=
  isSpace c || c.toNat = 0x1680 || (0x2000 ≤ c.toNat && c.toNat ≤ 0x200A) || c.toNat = 0x2028 ||
    c.toNat = 0x2029 || c.toNat = 0x202F || c.toNat = 0x205F || c.toNat = 0x3000

/-- `s.strip()`, on characters. -/
def stripChars (s : List Char) : List Char := (s.dropWhile isWhitespace).rdropWhile isWhitespace

/-- `s.strip()`, of any text. -/
def trim (s : String) : String := .ofList (stripChars s.toList)

section Strip

variable {a b m s : List Char}

/-- Only spaces. -/
def Blank (s : List Char) : Prop := ∀ c ∈ s, isWhitespace c

instance (s : List Char) : Decidable (Blank s) :=
  decidable_of_iff (s.all isWhitespace) List.all_eq_true

theorem blank_nil : Blank [] := fun _ h => by cases h

/-- A text that starts and ends with other characters. -/
def Trimmed (s : List Char) : Prop :=
  (∃ c l, s = c :: l ∧ isWhitespace c = false) ∧ ∃ l c, s = l ++ [c] ∧ isWhitespace c = false

/-- What is removed is blank. -/
theorem exists_stripChars (s : List Char) :
    ∃ a b, Blank a ∧ Blank b ∧ s = a ++ (stripChars s ++ b) := by
  refine ⟨s.takeWhile isWhitespace, (s.dropWhile isWhitespace).rtakeWhile isWhitespace, ?_, ?_, ?_⟩
  · exact fun c hc => List.mem_takeWhile_imp hc
  · exact fun c hc => List.mem_rtakeWhile_imp hc
  · rw [stripChars, List.rdropWhile_append_rtakeWhile, List.takeWhile_append_dropWhile]

theorem dropWhile_append_of_blank (ha : Blank a) :
    (a ++ s).dropWhile isWhitespace = s.dropWhile isWhitespace :=
  List.dropWhile_append_of_pos ha

/-- What is blank around a text is removed, and no more. -/
theorem stripChars_append (ha : Blank a) (hb : Blank b) (hm : Trimmed m) :
    stripChars (a ++ (m ++ b)) = m := by
  obtain ⟨⟨c, l, hfirst, hc⟩, l', c', hlast, hc'⟩ := hm
  have hdrop : (m ++ b).dropWhile isWhitespace = m ++ b := by
    rw [hfirst, List.cons_append, List.dropWhile_cons_of_neg (by simp [hc])]
  rw [stripChars, dropWhile_append_of_blank ha, hdrop, List.rdropWhile, List.reverse_append,
    List.dropWhile_append_of_pos (fun d hd => hb d (List.mem_reverse.1 hd)), hlast]
  simp [hc']

theorem stripChars_of_trimmed (hm : Trimmed m) : stripChars m = m := by
  have h := stripChars_append blank_nil blank_nil hm
  rwa [List.append_nil, List.nil_append] at h

theorem stripChars_stripChars : stripChars (stripChars s) = stripChars s := by
  rcases hs : stripChars s with _ | ⟨c, l⟩
  · rfl
  · refine stripChars_of_trimmed ⟨⟨c, l, rfl, ?_⟩, ?_⟩
    · have hprefix : c :: l <+: s.dropWhile isWhitespace := hs ▸ List.rdropWhile_prefix _ _
      obtain ⟨l', hl'⟩ := hprefix
      have hne : s.dropWhile isWhitespace ≠ [] := by
        rw [← hl']
        exact List.cons_ne_nil _ _
      have hhead := List.head_dropWhile_not isWhitespace hne
      simpa [← hl'] using hhead
    · have hlast : ∀ hne : stripChars s ≠ [], ¬isWhitespace ((stripChars s).getLast hne) :=
        List.rdropWhile_last_not isWhitespace _
      rw [hs] at hlast
      refine ⟨_, _, (List.dropLast_append_getLast (List.cons_ne_nil c l)).symm, ?_⟩
      exact Bool.eq_false_iff.2 (hlast _)

end Strip

namespace Regex

variable (w : WordChars)

/-- Whether the last character belongs to a word, behind `m`. -/
def ends (b : Bool) (m : List Char) : Bool := m.foldl (fun _ c => w.isWord c) b

/-- **What a pattern may take**, wherever that stands. -/
def Takes : Regex → List Char → Prop
  | char p, m => ∃ c, p c ∧ m = [c]
  | seq r s, m => ∃ m₁ m₂, r.Takes m₁ ∧ s.Takes m₂ ∧ m = m₁ ++ m₂
  | opt r, m => r.Takes m ∨ m = []
  | many p, m => ∀ c ∈ m, p c
  | notAhead _, m | atEnd, m | wordBound, m => m = []

/-- The pattern takes at least one character. -/
def Consumes : Regex → Prop
  | char _ => True
  | seq r s => r.Consumes ∨ s.Consumes
  | opt _ | many _ | notAhead _ | atEnd | wordBound => False

/-- The pattern does not take the character, nor looks past it. -/
def Within (c : Char) : Regex → Prop
  | char p | many p => p c = false
  | seq r s => r.Within c ∧ s.Within c
  | opt r => r.Within c
  | notAhead _ | atEnd => False
  | wordBound => True

variable {w}

theorem ends_append {b : Bool} {m m' : List Char} :
    ends w b (m ++ m') = ends w (ends w b m) m' := List.foldl_append

/-! ## What a way takes -/

theorem exists_of_mem_runMany {p : Char → Bool} {b : Bool} {s : List Char} {e : Bool × List Char}
    (h : e ∈ runMany w p b s) : ∃ m, s = m ++ e.2 ∧ e.1 = ends w b m ∧ ∀ c ∈ m, p c := by
  induction s generalizing b with
  | nil =>
    obtain rfl := List.mem_singleton.1 h
    exact ⟨[], rfl, rfl, fun _ hc => by cases hc⟩
  | cons c s ih =>
    simp only [runMany] at h
    split at h
    · next hp =>
      rcases List.mem_append.1 h with h | h
      · obtain ⟨m, rfl, hends, hm⟩ := ih h
        exact ⟨c :: m, rfl, hends, List.forall_mem_cons.2 ⟨hp, hm⟩⟩
      · obtain rfl := List.mem_singleton.1 h
        exact ⟨[], rfl, rfl, fun _ hc => by cases hc⟩
    · obtain rfl := List.mem_singleton.1 h
      exact ⟨[], rfl, rfl, fun _ hc => by cases hc⟩

/-- **What a way leaves** is an end of the text. -/
theorem exists_of_mem_run {r : Regex} {b : Bool} {s : List Char} {e : Bool × List Char}
    (h : e ∈ r.run w b s) : ∃ m, r.Takes m ∧ s = m ++ e.2 ∧ e.1 = ends w b m := by
  induction r generalizing b s e with
  | char p =>
    rcases s with _ | ⟨c, s⟩
    · cases h
    · simp only [run] at h
      split at h
      · next hp =>
        obtain rfl := List.mem_singleton.1 h
        exact ⟨[c], ⟨c, hp, rfl⟩, rfl, rfl⟩
      · cases h
  | seq r t ihr iht =>
    obtain ⟨e', he', h⟩ := List.mem_flatMap.1 h
    obtain ⟨m, hm, hs, hends⟩ := ihr he'
    obtain ⟨m', hm', hs', hends'⟩ := iht h
    refine ⟨m ++ m', ⟨m, m', hm, hm', rfl⟩, by rw [hs, hs', List.append_assoc], ?_⟩
    rw [ends_append, ← hends, hends']
  | opt r ih =>
    rcases List.mem_append.1 h with h | h
    · obtain ⟨m, hm, hs, hends⟩ := ih h
      exact ⟨m, .inl hm, hs, hends⟩
    · obtain rfl := List.mem_singleton.1 h
      exact ⟨[], .inr rfl, rfl, rfl⟩
  | many p =>
    obtain ⟨m, hs, hends, hm⟩ := exists_of_mem_runMany h
    exact ⟨m, hm, hs, hends⟩
  | notAhead r _ =>
    simp only [run] at h
    split at h
    · obtain rfl := List.mem_singleton.1 h
      exact ⟨[], rfl, rfl, rfl⟩
    · cases h
  | atEnd =>
    simp only [run] at h
    split at h
    · obtain rfl := List.mem_singleton.1 h
      exact ⟨[], rfl, rfl, rfl⟩
    · cases h
  | wordBound =>
    simp only [run] at h
    split at h
    · cases h
    · obtain rfl := List.mem_singleton.1 h
      exact ⟨[], rfl, rfl, rfl⟩

theorem Consumes.ne_nil {r : Regex} (hr : r.Consumes) {m : List Char} (hm : r.Takes m) :
    m ≠ [] := by
  induction r generalizing m with
  | char p =>
    obtain ⟨c, -, rfl⟩ := hm
    exact List.cons_ne_nil c []
  | seq r t ihr iht =>
    obtain ⟨m₁, m₂, hm₁, hm₂, rfl⟩ := hm
    intro hnil
    obtain ⟨rfl, rfl⟩ := List.append_eq_nil_iff.1 hnil
    rcases hr with hr | hr
    · exact ihr hr hm₁ rfl
    · exact iht hr hm₂ rfl
  | opt _ _ | many _ | notAhead _ _ | atEnd | wordBound => exact hr.elim

/-- **A separator ends the text** for a pattern that keeps off it. -/
theorem run_append_cons {r : Regex} {c : Char} (hr : r.Within c) (hc : w.isWord c = false)
    {b : Bool} {u v : List Char} :
    r.run w b (u ++ c :: v) = (r.run w b u).map fun e => (e.1, e.2 ++ c :: v) := by
  induction r generalizing b u with
  | char p =>
    rcases u with _ | ⟨d, u⟩
    · simp only [run, List.nil_append]
      rw [if_neg (Bool.eq_false_iff.1 hr), List.map_nil]
    · simp only [run, List.cons_append]
      split <;> rfl
  | seq r t ihr iht =>
    simp only [run, ihr hr.1, List.flatMap_map, List.map_flatMap]
    exact List.flatMap_congr fun e _ => iht hr.2
  | opt r ih => simp only [run, ih hr, List.map_append, List.map_cons, List.map_nil]
  | many p =>
    simp only [run]
    induction u generalizing b with
    | nil =>
      simp only [runMany, List.nil_append]
      rw [if_neg (Bool.eq_false_iff.1 hr)]
      rfl
    | cons d u ih =>
      simp only [runMany, List.cons_append]
      split
      · rw [ih, List.map_append]
        rfl
      · rfl
  | notAhead _ _ => exact hr.elim
  | atEnd => exact hr.elim
  | wordBound =>
    have hnext : wordNext w (u ++ c :: v) = wordNext w u := by
      rcases u with _ | ⟨d, u⟩
      · exact hc
      · rfl
    simp only [run, hnext]
    split <;> rfl

/-! ## What is replaced -/

section Sub

variable {r : Regex} {repl : List Char} {b : Bool}

theorem subFrom_append (m s : List Char) (b : Bool) :
    subFrom w r repl b m.length (m ++ s) = subFrom w r repl (ends w b m) 0 s := by
  induction m generalizing b with
  | nil => rfl
  | cons c m ih => exact ih (w.isWord c)

/-- Where the pattern matches, its first way is replaced. -/
theorem subFrom_of_run_cons (hr : r.Consumes) {s rest : List Char} {b' : Bool}
    {l : List (Bool × List Char)} (h : r.run w b s = (b', rest) :: l) :
    subFrom w r repl b 0 s = repl ++ subFrom w r repl b' 0 rest := by
  obtain ⟨m, hm, hs, hends⟩ := exists_of_mem_run (h ▸ List.mem_cons_self)
  rcases m with _ | ⟨c, m⟩
  · exact absurd rfl (hr.ne_nil hm)
  · simp only [List.cons_append] at hs
    subst hs
    have hlength : (m ++ rest).length - rest.length = m.length := by
      rw [List.length_append]
      omega
    simp only [subFrom, h, hlength]
    rw [subFrom_append]
    exact congrArg (fun b => repl ++ subFrom w r repl b 0 rest) hends.symm

theorem subFrom_of_run_nil {c : Char} {s : List Char} (h : r.run w b (c :: s) = []) :
    subFrom w r repl b 0 (c :: s) = c :: subFrom w r repl (w.isWord c) 0 s := by
  simp only [subFrom, h]

/-- A way that takes all. -/
theorem subFrom_of_run_all (hr : r.Consumes) {s : List Char} {b' : Bool}
    {l : List (Bool × List Char)} (h : r.run w b s = (b', []) :: l) :
    subFrom w r repl b 0 s = repl := by
  rw [subFrom_of_run_cons hr h, subFrom, List.append_nil]

/-- **The parts are replaced by themselves.** -/
theorem subFrom_append_cons (hr : r.Consumes) {c : Char} (hw : r.Within c)
    (hc : w.isWord c = false) (b : Bool) (u v : List Char) :
    subFrom w r repl b 0 (u ++ c :: v) =
      subFrom w r repl b 0 u ++ c :: subFrom w r repl false 0 v := by
  -- by the length of what is in front
  induction hn : u.length using Nat.strong_induction_on generalizing b u with
  | _ n ih =>
    subst hn
    have hrun := run_append_cons hw hc (b := b) (u := u) (v := v)
    rcases hu : r.run w b u with _ | ⟨⟨b', rest⟩, l⟩
    · rw [hu, List.map_nil] at hrun
      rcases u with _ | ⟨d, u⟩
      · rw [List.nil_append] at hrun
        rw [List.nil_append, subFrom_of_run_nil hrun, hc, subFrom, List.nil_append]
      · rw [List.cons_append] at hrun
        rw [List.cons_append, subFrom_of_run_nil hrun, subFrom_of_run_nil hu,
          ih _ (by rw [List.length_cons]; omega) _ u rfl, List.cons_append]
    · rw [hu, List.map_cons] at hrun
      obtain ⟨m, hm, hs, -⟩ := exists_of_mem_run (hu ▸ List.mem_cons_self)
      have hlt : rest.length < u.length := by
        have hpos := List.length_pos_of_ne_nil (hr.ne_nil hm)
        rw [hs, List.length_append]
        exact Nat.lt_add_of_pos_left hpos
      rw [subFrom_of_run_cons hr hrun, subFrom_of_run_cons hr hu, ih _ hlt b' rest rfl,
        List.append_assoc]

end Sub

/-- **Some characters are kept, and matches replaced.** -/
inductive Subst (M : List Char → Prop) (repl : List Char) : List Char → List Char → Prop
  | nil : Subst M repl [] []
  | keep (c : Char) {s out : List Char} : Subst M repl s out → Subst M repl (c :: s) (c :: out)
  | replace {m s out : List Char} : M m → Subst M repl s out → Subst M repl (m ++ s) (repl ++ out)

theorem subst_subFrom {r : Regex} (hr : r.Consumes) (repl : List Char) (b : Bool) (s : List Char) :
    Subst r.Takes repl s (subFrom w r repl b 0 s) := by
  induction hn : s.length using Nat.strong_induction_on generalizing b s with
  | _ n ih =>
    subst hn
    rcases s with _ | ⟨c, s⟩
    · exact .nil
    · rcases hrun : r.run w b (c :: s) with _ | ⟨⟨b', rest⟩, l⟩
      · rw [subFrom_of_run_nil hrun]
        exact .keep c (ih _ (by rw [List.length_cons]; omega) _ s rfl)
      · have hmem : (b', rest) ∈ r.run w b (c :: s) := hrun ▸ List.mem_cons_self
        obtain ⟨m, hm, hs, -⟩ := exists_of_mem_run hmem
        have hlt : rest.length < (c :: s).length := by
          have hpos := List.length_pos_of_ne_nil (hr.ne_nil hm)
          rw [hs, List.length_append]
          exact Nat.lt_add_of_pos_left hpos
        rw [subFrom_of_run_cons hr hrun, hs]
        exact .replace hm (ih _ hlt b' rest rfl)

namespace Subst

variable {M : List Char → Prop} {repl s out x t : List Char} {c : Char}

theorem mono {M' : List Char → Prop} (h : Subst M repl s out) (hM : ∀ m, M m → M' m) :
    Subst M' repl s out := by
  induction h with
  | nil => exact .nil
  | keep c _ ih => exact .keep c ih
  | replace hm _ ih => exact .replace (hM _ hm) ih

theorem mem (h : Subst M repl s out) (hc : c ∈ out) : c ∈ s ∨ c ∈ repl := by
  induction h with
  | nil => cases hc
  | keep d _ ih =>
    rcases List.mem_cons.1 hc with rfl | hc
    · exact .inl List.mem_cons_self
    · exact (ih hc).imp_left (List.mem_cons_of_mem d)
  | replace _ _ ih =>
    rcases List.mem_append.1 hc with hc | hc
    · exact .inr hc
    · exact (ih hc).imp_left (List.mem_append_right _)

/-- A character that no match has stays. -/
theorem mem_out (h : Subst M repl s out) (hM : ∀ m, M m → c ∉ m) (hc : c ∈ s) : c ∈ out := by
  induction h with
  | nil => cases hc
  | keep d _ ih =>
    rcases List.mem_cons.1 hc with rfl | hc
    · exact List.mem_cons_self
    · exact List.mem_cons_of_mem d (ih hc)
  | replace hm _ ih =>
    rcases List.mem_append.1 hc with hc | hc
    · exact absurd hc (hM _ hm)
    · exact List.mem_append_right _ (ih hc)

/-- Where the replacement is not, nothing was replaced. -/
theorem eq_of_out (h : Subst M repl s out) (hout : ¬repl <:+: out) : s = out := by
  induction h with
  | nil => rfl
  | keep d _ ih => rw [ih fun hi => hout (hi.trans (List.suffix_cons d _).isInfix)]
  | replace _ _ _ => exact absurd (List.prefix_append repl _).isInfix hout

/-- Where no match is, neither. -/
theorem eq_of_source (h : Subst M repl s out) (hs : ∀ m, M m → ¬m <:+: s) : s = out := by
  induction h with
  | nil => rfl
  | keep d _ ih => rw [ih fun m hm hi => hs m hm (hi.trans (List.suffix_cons d _).isInfix)]
  | replace hm _ _ => exact absurd (List.prefix_append _ _).isInfix (hs _ hm)

theorem eq_nil (h : Subst M repl s []) (hrepl : repl ≠ []) : s = [] := by
  generalize hout : ([] : List Char) = out at h
  cases h with
  | nil => rfl
  | keep => cases hout
  | replace _ _ => exact absurd (List.append_eq_nil_iff.1 hout.symm).1 hrepl

theorem ne_nil (h : Subst M repl s out) (hs : s ≠ []) (hrepl : repl ≠ []) : out ≠ [] := by
  rintro rfl
  exact hs (h.eq_nil hrepl)

/-- The replacement alone comes of itself, or of one match. -/
theorem eq_or_of_repl (h : Subst M repl s out) (hout : out = repl) (hrepl : repl ≠ []) :
    s = repl ∨ M s := by
  cases h with
  | nil => exact .inl hout
  | @keep c s out h =>
    have hkept : s = out := by
      refine h.eq_of_out fun hi => ?_
      have hle := hi.length_le
      rw [← hout, List.length_cons] at hle
      omega
    exact .inl (by rw [hkept, hout])
  | @replace m s out hm h =>
    have hnil : out = [] := by
      have hlength := congrArg List.length hout
      rw [List.length_append] at hlength
      exact List.length_eq_zero_iff.1 (by omega)
    subst hnil
    rw [h.eq_nil hrepl, List.append_nil]
    exact .inr hm

/-- **An end without the replacement** was the end, if no replacement reaches
into it. -/
theorem of_append (h : Subst M repl s (x ++ c :: t)) (hc : c ∉ repl) (ht : ¬repl <:+: c :: t) :
    ∃ u, s = u ++ c :: t ∧ Subst M repl u x := by
  generalize hout : x ++ c :: t = out at h
  induction h generalizing x with
  | nil => exact absurd hout (by simp)
  | @keep d s out h ih =>
    rcases x with _ | ⟨d', x⟩
    · obtain ⟨rfl, rfl⟩ := List.cons.inj hout
      refine ⟨[], ?_, .nil⟩
      rw [h.eq_of_out fun hi => ht (hi.trans (List.suffix_cons _ _).isInfix), List.nil_append]
    · obtain ⟨rfl, hrest⟩ := List.cons.inj hout
      obtain ⟨u, rfl, hu⟩ := ih hrest
      exact ⟨d' :: u, rfl, hu.keep d'⟩
  | @replace m s out hm h ih =>
    rcases List.append_eq_append_iff.1 hout.symm with ⟨z, rfl, hz⟩ | ⟨z, hz, hrest⟩
    · obtain ⟨u, rfl, hu⟩ := ih hz.symm
      exact ⟨m ++ u, by rw [List.append_assoc], hu.replace hm⟩
    · rcases z with _ | ⟨d, z⟩
      · rw [List.append_nil] at hz
        rw [List.nil_append] at hrest
        obtain ⟨u, rfl, hu⟩ := ih (x := []) hrest
        refine ⟨m ++ u, by rw [List.append_assoc], ?_⟩
        have hx := hu.replace hm
        rw [List.append_nil] at hx
        rw [← hz]
        exact hx
      · obtain ⟨rfl, -⟩ := List.cons.inj hrest
        rw [hz] at hc
        exact absurd (List.mem_append_right _ List.mem_cons_self) hc

/-- **An end without matches** stays the end, if no match reaches into it. -/
theorem append (h : Subst M repl (x ++ t) out)
    (hover : ∀ m z, M m → z ≠ [] → z <:+ m → ¬z <+: t) (ht : ∀ m, M m → ¬m <:+: t) :
    ∃ y, out = y ++ t ∧ Subst M repl x y := by
  generalize hs : x ++ t = s at h
  induction h generalizing x with
  | nil =>
    obtain ⟨rfl, rfl⟩ := List.append_eq_nil_iff.1 hs
    exact ⟨[], rfl, .nil⟩
  | @keep d s out h ih =>
    rcases x with _ | ⟨d', x⟩
    · refine ⟨[], ?_, .nil⟩
      rw [List.nil_append] at hs
      subst hs
      rw [(h.keep d).eq_of_source ht, List.nil_append]
    · obtain ⟨rfl, hrest⟩ := List.cons.inj hs
      obtain ⟨y, rfl, hy⟩ := ih hrest
      exact ⟨d' :: y, rfl, hy.keep d'⟩
  | @replace m s out hm h ih =>
    rcases List.append_eq_append_iff.1 hs.symm with ⟨z, rfl, hz⟩ | ⟨z, hz, hrest⟩
    · obtain ⟨y, rfl, hy⟩ := ih hz.symm
      exact ⟨repl ++ y, by rw [List.append_assoc], hy.replace hm⟩
    · rcases z with _ | ⟨d, z⟩
      · rw [List.append_nil] at hz
        rw [List.nil_append] at hrest
        obtain ⟨y, rfl, hy⟩ := ih (x := []) hrest
        refine ⟨repl ++ y, by rw [List.append_assoc], ?_⟩
        have hx := hy.replace hm
        rwa [List.append_nil, hz] at hx
      · exact absurd ⟨s, hrest.symm⟩ (hover m (d :: z) hm (List.cons_ne_nil d z) ⟨x, hz.symm⟩)

end Subst

/-- **The parts of what comes out** are of parts of the text. -/
theorem exists_of_subFrom_eq {r : Regex} (hr : r.Consumes) {c : Char} (hw : r.Within c)
    (hc : w.isWord c = false) {repl : List Char} (hrepl : c ∉ repl) {b : Bool}
    {s x y : List Char} (h : subFrom w r repl b 0 s = x ++ c :: y) :
    ∃ u v, s = u ++ c :: v ∧ subFrom w r repl b 0 u = x ∧ subFrom w r repl false 0 v = y := by
  induction hn : s.length using Nat.strong_induction_on generalizing b s x with
  | _ n ih =>
    subst hn
    have hmem : c ∈ s := by
      have hout : c ∈ subFrom w r repl b 0 s := h ▸ List.mem_append_right _ List.mem_cons_self
      rcases (subst_subFrom (w := w) hr repl b s).mem hout with hmem | hmem
      · exact hmem
      · exact absurd hmem hrepl
    obtain ⟨u, v, rfl, hu⟩ := exists_first hmem
    -- the part in front of the first separator has none when it comes out
    have hfirst : c ∉ subFrom w r repl b 0 u := by
      intro hout
      rcases (subst_subFrom (w := w) hr repl b u).mem hout with hin | hin
      · exact hu hin
      · exact hrepl hin
    rw [subFrom_append_cons hr hw hc] at h
    rcases List.append_eq_append_iff.1 h with ⟨z, hx, hz⟩ | ⟨z, hx, hz⟩
    · rcases z with _ | ⟨d, z⟩
      · rw [List.append_nil] at hx
        exact ⟨u, v, rfl, hx.symm, (List.cons.inj hz).2⟩
      · rw [List.cons_append] at hz
        obtain ⟨rfl, hrest⟩ := List.cons.inj hz
        have hlt : v.length < (u ++ c :: v).length := by
          rw [List.length_append, List.length_cons]
          omega
        obtain ⟨u', v', rfl, hu', hv'⟩ := ih _ hlt hrest rfl
        refine ⟨u ++ c :: u', v', by simp, ?_, hv'⟩
        rw [subFrom_append_cons hr hw hc, hu', hx]
    · rcases z with _ | ⟨d, z⟩
      · rw [List.append_nil] at hx
        exact ⟨u, v, rfl, hx, (List.cons.inj hz).2.symm⟩
      · obtain ⟨rfl, -⟩ := List.cons.inj hz
        exact absurd (hx ▸ List.mem_append_right _ List.mem_cons_self) hfirst

end Regex

end Python

end ChutesApi
