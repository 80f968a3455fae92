import ChutesApi.Watchtower.Model.Command
/-!
# Which commands are accepted

The two patterns only shorten the interpreter and the program to their names
(`interpreter_of_takes`, `subFrom_interpreter`; `program_of_takes`,
`subFrom_program`). So a command line passes exactly if it is the expected one
up to a directory and a version of the interpreter, a directory of `chutes`,
and spaces around it: nothing can be put between its parts, as long as no
argument has the name of either.
-/

namespace ChutesApi

namespace Watchtower

namespace Command

open Python Regex

/-! ## The names that are left out of account -/

/-- `([^ ]+/)?` -/
def Directory (s : List Char) : Prop := s = [] ∨ ∃ d, d ≠ [] ∧ ' ' ∉ d ∧ s = d ++ ['/']

/-- `3?(\.[0-9]+)?` -/
def PythonVersion (s : List Char) : Prop :=
  ∃ major minor, s = major ++ minor ∧ (major = [] ∨ major = ['3']) ∧
    (minor = [] ∨ ∃ ds, ds ≠ [] ∧ (∀ d ∈ ds, isDecimal d) ∧ minor = '.' :: ds)

/-- **An interpreter**: `python`, wherever it is and of whichever version. -/
def Interpreter (s : List Char) : Prop :=
  ∃ dir version, Directory dir ∧ PythonVersion version ∧
    s = dir ++ ("python".toList ++ version)

/-- **The program**: `chutes`, wherever it is. -/
def Program (s : List Char) : Prop := ∃ dir, Directory dir ∧ s = dir ++ "chutes".toList

variable {w : WordChars} {s t m a b dir version rest : List Char}

theorem PythonVersion.slash_notMem (h : PythonVersion version) : '/' ∉ version := by
  obtain ⟨major, minor, rfl, hmajor, hminor⟩ := h
  intro hmem
  rcases List.mem_append.1 hmem with hmem | hmem
  · rcases hmajor with rfl | rfl
    · cases hmem
    · simp at hmem
  · rcases hminor with rfl | ⟨ds, -, hds, rfl⟩
    · cases hmem
    · rcases List.mem_cons.1 hmem with heq | hmem
      · simp at heq
      · exact absurd (hds '/' hmem) (by decide)

theorem Directory.space_notMem (h : Directory dir) : ' ' ∉ dir := by
  rcases h with rfl | ⟨d, -, hd, rfl⟩
  · simp
  · simp [hd]

theorem PythonVersion.space_notMem (h : PythonVersion version) : ' ' ∉ version := by
  obtain ⟨major, minor, rfl, hmajor, hminor⟩ := h
  intro hmem
  rcases List.mem_append.1 hmem with hmem | hmem
  · rcases hmajor with rfl | rfl
    · cases hmem
    · simp at hmem
  · rcases hminor with rfl | ⟨ds, -, hds, rfl⟩
    · cases hmem
    · rcases List.mem_cons.1 hmem with heq | hmem
      · simp at heq
      · exact absurd (hds ' ' hmem) (by decide)

theorem Interpreter.space_notMem (h : Interpreter s) : ' ' ∉ s := by
  obtain ⟨dir, version, hdir, hversion, rfl⟩ := h
  simp [hdir.space_notMem, hversion.space_notMem]

theorem Interpreter.python_infix (h : Interpreter s) : "python".toList <:+: s := by
  obtain ⟨dir, version, -, -, rfl⟩ := h
  exact ⟨dir, version, by rw [List.append_assoc]⟩

theorem Program.chutes_infix (h : Program s) : "chutes".toList <:+: s := by
  obtain ⟨dir, -, rfl⟩ := h
  exact (List.suffix_append dir _).isInfix

theorem Program.space_notMem (h : Program s) : ' ' ∉ s := by
  obtain ⟨dir, hdir, rfl⟩ := h
  simp [hdir.space_notMem]

/-! ## What the patterns take -/

theorem takes_text (hs : s ≠ []) : (text s).Takes m ↔ m = s := by
  induction s generalizing m with
  | nil => exact absurd rfl hs
  | cons c s ih =>
    rcases s with _ | ⟨d, s⟩
    · simp [text, Takes]
    · simp only [text, Takes, ih (List.cons_ne_nil d s)]
      constructor
      · rintro ⟨m₁, m₂, ⟨c', hc, rfl⟩, rfl, rfl⟩
        rw [beq_iff_eq] at hc
        rw [hc, List.singleton_append]
      · rintro rfl
        exact ⟨[c], d :: s, ⟨c, by simp, rfl⟩, rfl, rfl⟩

theorem directory_of_takes (h : directoryPattern.Takes m) : Directory m := by
  rcases h with ⟨m₁, m₂, ⟨d₁, d₂, ⟨c, hc, rfl⟩, hd, rfl⟩, ⟨e, he, rfl⟩, rfl⟩ | rfl
  · rw [beq_iff_eq] at he
    refine .inr ⟨[c] ++ d₂, by simp, ?_, by rw [he]⟩
    rw [List.singleton_append, List.mem_cons, not_or]
    exact ⟨fun heq => by simp [← heq] at hc, fun hmem => by simpa using hd ' ' hmem⟩
  · exact .inl rfl

theorem interpreter_of_takes (h : pythonPattern.Takes m) : Interpreter m := by
  obtain ⟨dir, tail, hdir, ⟨name, version, hname, ⟨major, minor, hmajor, hminor, rfl⟩, rfl⟩, rfl⟩ :=
    h
  rw [takes_text (by decide)] at hname
  subst hname
  refine ⟨dir, _, directory_of_takes hdir, ⟨major, minor, rfl, ?_, ?_⟩, rfl⟩
  · rcases hmajor with ⟨c, hc, rfl⟩ | rfl
    · rw [beq_iff_eq] at hc
      exact .inr (by rw [hc])
    · exact .inl rfl
  · rcases hminor with ⟨m₁, m₂, ⟨c, hc, rfl⟩, ⟨d₁, d₂, ⟨d, hd, rfl⟩, hds, rfl⟩, rfl⟩ | rfl
    · rw [beq_iff_eq] at hc
      refine .inr ⟨[d] ++ d₂, by simp, ?_, by rw [hc, List.singleton_append]⟩
      exact List.forall_mem_cons.2 ⟨hd, hds⟩
    · exact .inl rfl

theorem program_of_takes (h : chutesPattern.Takes m) : Program m := by
  obtain ⟨dir, tail, hdir, ⟨name, bound, hname, hbound, rfl⟩, rfl⟩ := h
  rw [takes_text (by decide)] at hname
  subst hname
  obtain rfl : bound = [] := hbound
  exact ⟨dir, directory_of_takes hdir, by rw [List.append_nil]⟩

theorem consumes_python : pythonPattern.Consumes := .inr (.inl (.inl trivial))

theorem consumes_chutes : chutesPattern.Consumes := .inr (.inl (.inl trivial))

theorem within_python : pythonPattern.Within ' ' := by
  simp [pythonPattern, directoryPattern, versionPattern, many1, text, Within, isDecimal]

theorem within_chutes : chutesPattern.Within ' ' := by
  simp [chutesPattern, directoryPattern, many1, text, Within]

/-! ## What they take first -/

theorem run_text (hs : s ≠ []) {b : Bool} : (text s).run w b (s ++ t) = [(ends w b s, t)] := by
  induction s generalizing b with
  | nil => exact absurd rfl hs
  | cons c s ih =>
    rcases s with _ | ⟨d, s⟩
    · simp [text, run, ends]
    · simp only [text, run, List.cons_append, beq_self_eq_true, if_true, List.flatMap_cons,
        List.flatMap_nil, List.append_nil]
      exact ih (List.cons_ne_nil d s)

/-- The longest way comes first. -/
theorem runMany_all {p : Char → Bool} (hs : ∀ c ∈ s, p c) {b : Bool} :
    ∃ l, runMany w p b s = (ends w b s, []) :: l := by
  induction s generalizing b with
  | nil => exact ⟨[], rfl⟩
  | cons c s ih =>
    rw [List.forall_mem_cons] at hs
    obtain ⟨l, hl⟩ := ih hs.2 (b := w.isWord c)
    refine ⟨l ++ [(b, c :: s)], ?_⟩
    simp only [runMany, if_pos hs.1, hl]
    rfl

/-- The first way to a slash leads to the last one. -/
theorem runMany_slash (ha : ' ' ∉ a) (ht : '/' ∉ t) {b : Bool} :
    ∃ l, (runMany w (· != ' ') b (a ++ '/' :: t)).flatMap
      (fun e => (char (· == '/')).run w e.1 e.2) = (w.isWord '/', t) :: l := by
  have hbehind : ∀ b, (runMany w (· != ' ') b t).flatMap
      (fun e => (char (· == '/')).run w e.1 e.2) = [] := by
    intro b
    rw [List.eq_nil_iff_forall_not_mem]
    intro e he
    obtain ⟨e', he', he⟩ := List.mem_flatMap.1 he
    obtain ⟨m, hm, -, -⟩ := exists_of_mem_runMany he'
    obtain ⟨m', ⟨c, hc, rfl⟩, hrest, -⟩ := exists_of_mem_run he
    rw [beq_iff_eq] at hc
    rw [hm, hrest, hc] at ht
    simp at ht
  induction a generalizing b with
  | nil =>
    refine ⟨[], ?_⟩
    simp only [List.nil_append, runMany]
    rw [if_pos (by decide), List.flatMap_append, hbehind, List.nil_append]
    simp [run]
  | cons c a ih =>
    rw [List.mem_cons, not_or] at ha
    obtain ⟨l, hl⟩ := ih ha.2 (b := w.isWord c)
    have hc : (c != ' ') = true := by simpa using fun heq => ha.1 heq.symm
    simp only [List.cons_append, runMany, if_pos hc, List.flatMap_append, hl]
    exact ⟨_, rfl⟩

/-- A directory is taken whole, up to the last slash. -/
theorem run_directory (hdir : Directory dir) (ht : '/' ∉ t) {b : Bool} :
    ∃ b' l, directoryPattern.run w b (dir ++ t) = (b', t) :: l := by
  rcases hdir with rfl | ⟨d, hd, hspace, rfl⟩
  · have hnone : (seq (many1 (· != ' ')) (char (· == '/'))).run w b t = [] := by
      rw [List.eq_nil_iff_forall_not_mem]
      intro e he
      obtain ⟨m, ⟨m₁, m₂, -, ⟨c, hc, rfl⟩, rfl⟩, hs, -⟩ := exists_of_mem_run he
      rw [beq_iff_eq] at hc
      rw [hs, hc] at ht
      simp at ht
    refine ⟨b, [], ?_⟩
    simp only [directoryPattern, run, List.nil_append] at hnone ⊢
    rw [hnone, List.nil_append]
  · rcases d with _ | ⟨c, d⟩
    · exact absurd rfl hd
    · rw [List.mem_cons, not_or] at hspace
      obtain ⟨l, hl⟩ := runMany_slash (w := w) hspace.2 ht (b := w.isWord c)
      refine ⟨w.isWord '/', l ++ [(b, c :: (d ++ '/' :: t))], ?_⟩
      have htext : (c :: d ++ ['/']) ++ t = c :: (d ++ '/' :: t) := by simp
      have hc : (c != ' ') = true := by simpa using fun heq => hspace.1 heq.symm
      rw [htext]
      simp only [directoryPattern, many1, run, if_pos hc, List.flatMap_cons, List.flatMap_nil,
        List.append_nil, hl, List.cons_append]

/-- A version is taken whole. -/
theorem run_version (hversion : PythonVersion version) {b : Bool} :
    ∃ b' l, versionPattern.run w b version = (b', []) :: l := by
  obtain ⟨major, minor, rfl, hmajor, hminor⟩ := hversion
  have hrest : ∀ b, ∃ b' l,
      (opt (seq (char (· == '.')) (many1 isDecimal))).run w b minor = (b', []) :: l := by
    intro b
    rcases hminor with rfl | ⟨ds, hne, hds, rfl⟩
    · exact ⟨b, [], by simp [run]⟩
    · rcases ds with _ | ⟨d, ds⟩
      · exact absurd rfl hne
      · rw [List.forall_mem_cons] at hds
        obtain ⟨l, hl⟩ := runMany_all (w := w) hds.2 (b := w.isWord d)
        refine ⟨ends w (w.isWord d) ds, l ++ [(b, '.' :: d :: ds)], ?_⟩
        simp only [many1, run, beq_self_eq_true, if_true, List.flatMap_cons, List.flatMap_nil,
          List.append_nil, hds.1, hl, List.cons_append]
  rcases hmajor with rfl | rfl
  · have hnone : (char (· == '3')).run w b minor = [] := by
      rcases hminor with rfl | ⟨ds, -, -, rfl⟩
      · rfl
      · simp [run]
    obtain ⟨b', l, hl⟩ := hrest b
    refine ⟨b', l, ?_⟩
    rw [versionPattern, run, run, List.nil_append, hnone, List.nil_append, List.flatMap_cons,
      List.flatMap_nil, List.append_nil]
    exact hl
  · obtain ⟨b', l, hl⟩ := hrest (w.isWord '3')
    rw [versionPattern, run, run, List.singleton_append, run]
    simp only [beq_self_eq_true, if_true, List.cons_append, List.flatMap_cons, hl]
    exact ⟨b', _, rfl⟩

/-- **An interpreter becomes `python`.** -/
theorem subFrom_interpreter (h : Interpreter s) (b : Bool) :
    subFrom w pythonPattern "python".toList b 0 s = "python".toList := by
  obtain ⟨dir, version, hdir, hversion, rfl⟩ := h
  have hslash : '/' ∉ "python".toList ++ version := by simp [hversion.slash_notMem]
  obtain ⟨b₁, l₁, h₁⟩ := run_directory (w := w) hdir hslash (b := b)
  obtain ⟨b₂, l₂, h₂⟩ := run_version (w := w) hversion (b := ends w b₁ "python".toList)
  have hall : ∃ l, pythonPattern.run w b (dir ++ ("python".toList ++ version)) = (b₂, []) :: l := by
    rw [pythonPattern, run, h₁, List.flatMap_cons, run, run_text (by decide), List.flatMap_cons,
      List.flatMap_nil, List.append_nil, h₂, List.cons_append]
    exact ⟨_, rfl⟩
  obtain ⟨l, hl⟩ := hall
  exact subFrom_of_run_all consumes_python hl

/-- **A program becomes `chutes`.** -/
theorem subFrom_program (h : Program s) (b : Bool) :
    subFrom w chutesPattern "chutes".toList b 0 s = "chutes".toList := by
  obtain ⟨dir, hdir, rfl⟩ := h
  obtain ⟨b₁, l₁, h₁⟩ := run_directory (w := w) hdir (by decide : '/' ∉ "chutes".toList) (b := b)
  have hword : ends w b₁ "chutes".toList = true := w.ascii 's' (by decide)
  have hbound : wordBound.run w true [] = [(true, [])] := rfl
  have htext := run_text (w := w) (t := []) (by decide : "chutes".toList ≠ []) (b := b₁)
  rw [List.append_nil] at htext
  have hall : ∃ l, chutesPattern.run w b (dir ++ "chutes".toList) = (true, []) :: l := by
    rw [chutesPattern, run, h₁, List.flatMap_cons, run, htext, List.flatMap_cons, List.flatMap_nil,
      List.append_nil, hword, hbound, List.cons_append]
    exact ⟨_, rfl⟩
  obtain ⟨l, hl⟩ := hall
  exact subFrom_of_run_all consumes_chutes hl

/-! ## What they leave -/

/-- What the first pattern leaves of a text, -/
def pythons (w : WordChars) (b : Bool) (s : List Char) : List Char :=
  subFrom w pythonPattern "python".toList b 0 s

/-- and what the second one leaves. -/
def programs (w : WordChars) (b : Bool) (s : List Char) : List Char :=
  subFrom w chutesPattern "chutes".toList b 0 s

variable {f : Bool} {u v x y : List Char}

theorem subst_pythons : Subst Interpreter "python".toList s (pythons w f s) :=
  (subst_subFrom consumes_python _ _ _).mono fun _ => interpreter_of_takes

theorem subst_programs : Subst Program "chutes".toList s (programs w f s) :=
  (subst_subFrom consumes_chutes _ _ _).mono fun _ => program_of_takes

theorem pythons_append :
    pythons w f (u ++ ' ' :: v) = pythons w f u ++ ' ' :: pythons w false v :=
  subFrom_append_cons consumes_python within_python w.not_isWord_space _ _ _

theorem programs_append :
    programs w f (u ++ ' ' :: v) = programs w f u ++ ' ' :: programs w false v :=
  subFrom_append_cons consumes_chutes within_chutes w.not_isWord_space _ _ _

theorem exists_of_pythons (h : pythons w f s = x ++ ' ' :: y) :
    ∃ u v, s = u ++ ' ' :: v ∧ pythons w f u = x ∧ pythons w false v = y :=
  exists_of_subFrom_eq consumes_python within_python w.not_isWord_space (by decide) h

theorem exists_of_programs (h : programs w f s = x ++ ' ' :: y) :
    ∃ u v, s = u ++ ' ' :: v ∧ programs w f u = x ∧ programs w false v = y :=
  exists_of_subFrom_eq consumes_chutes within_chutes w.not_isWord_space (by decide) h

theorem pythons_eq_self (h : ¬"python".toList <:+: s) : pythons w f s = s :=
  (subst_pythons.eq_of_source fun _ hm hi => h (hm.python_infix.trans hi)).symm

theorem programs_eq_self (h : ¬"chutes".toList <:+: s) : programs w f s = s :=
  (subst_programs.eq_of_source fun _ hm hi => h (hm.chutes_infix.trans hi)).symm

theorem interpreter_python : Interpreter "python".toList :=
  ⟨[], [], .inl rfl, ⟨[], [], rfl, .inl rfl, .inl rfl⟩, rfl⟩

theorem program_chutes : Program "chutes".toList := ⟨[], .inl rfl, rfl⟩

/-- What `python` is left of is an interpreter. -/
theorem exists_of_subst_python (ha : Blank a)
    (h : Subst Interpreter "python".toList s (a ++ "python".toList)) :
    ∃ i, Interpreter i ∧ s = a ++ i := by
  induction a generalizing s with
  | nil =>
    rcases h.eq_or_of_repl rfl (by decide) with rfl | hs
    · exact ⟨_, interpreter_python, rfl⟩
    · exact ⟨s, hs, rfl⟩
  | cons c a ih =>
    generalize hout : c :: a ++ "python".toList = out at h
    cases h with
    | nil => cases hout
    | keep d h =>
      obtain ⟨rfl, rfl⟩ := List.cons.inj hout
      obtain ⟨i, hi, rfl⟩ := ih (fun e he => ha e (List.mem_cons_of_mem c he)) h
      exact ⟨i, hi, rfl⟩
    | replace _ _ =>
      -- a space is not the `p`
      obtain ⟨rfl, -⟩ := List.cons.inj hout
      exact absurd (ha 'p' List.mem_cons_self) (by decide)

/-- An interpreter behind spaces leaves `python` behind spaces: those that are
not part of its directory. -/
theorem exists_pythons_interpreter (ha : Blank a) (hs : Interpreter s) (b : Bool) :
    ∃ a', Blank a' ∧ pythons w b (a ++ s) = a' ++ "python".toList := by
  induction hn : a.length using Nat.strong_induction_on generalizing a b with
  | _ n ih =>
    subst hn
    by_cases hspace : ' ' ∈ a
    · obtain ⟨u, v, rfl, -⟩ := exists_first hspace
      have hu : Blank u := fun c hc => ha c (List.mem_append_left _ hc)
      have hv : Blank v := fun c hc => ha c (List.mem_append_right _ (List.mem_cons_of_mem _ hc))
      have hself : pythons w b u = u := pythons_eq_self fun hi =>
        absurd (hu 'p' (hi.subset (by decide))) (by decide)
      have hlt : v.length < (u ++ ' ' :: v).length := by
        rw [List.length_append, List.length_cons]
        omega
      obtain ⟨a', ha', hout⟩ := ih v.length hlt hv false rfl
      refine ⟨u ++ ' ' :: a', fun c hc => ?_, ?_⟩
      · rcases List.mem_append.1 hc with hc | hc
        · exact hu c hc
        · rcases List.mem_cons.1 hc with rfl | hc
          · decide
          · exact ha' c hc
      · rw [List.append_assoc, List.cons_append, pythons_append, hself, hout, List.append_assoc,
          List.cons_append]
    · obtain ⟨dir, version, hdir, hversion, rfl⟩ := hs
      rcases hdir with rfl | ⟨d, hd, hspace', rfl⟩
      · rcases a with _ | ⟨c, a⟩
        · refine ⟨[], ha, ?_⟩
          exact subFrom_interpreter ⟨[], version, .inl rfl, hversion, rfl⟩ b
        · -- no way starts at a space, with no slash to come
          have hnone :
              pythonPattern.run w b (c :: a ++ ([] ++ ("python".toList ++ version))) = [] := by
            rw [List.eq_nil_iff_forall_not_mem]
            intro e he
            obtain ⟨m, hm, hs, -⟩ := exists_of_mem_run he
            obtain ⟨dir, version', hdir, -, rfl⟩ := interpreter_of_takes hm
            rcases hdir with rfl | ⟨d, hd, -, rfl⟩
            · obtain ⟨rfl, -⟩ := List.cons.inj hs
              exact absurd (ha 'p' List.mem_cons_self) (by decide)
            · have hslash : '/' ∈ c :: a ++ ([] ++ ("python".toList ++ version)) := by
                rw [hs]
                simp
              rw [List.nil_append] at hslash
              rcases List.mem_append.1 hslash with hslash | hslash
              · exact absurd (ha '/' hslash) (by decide)
              · simp [hversion.slash_notMem] at hslash
          rw [List.mem_cons, not_or] at hspace
          obtain ⟨a', ha', hout⟩ := ih a.length (by simp)
            (fun e he => ha e (List.mem_cons_of_mem c he)) (w.isWord c) rfl
          refine ⟨c :: a', List.forall_mem_cons.2 ⟨ha c List.mem_cons_self, ha'⟩, ?_⟩
          rw [List.cons_append] at hnone
          rw [List.cons_append, pythons, subFrom_of_run_nil hnone]
          exact congrArg (c :: ·) hout
      · refine ⟨[], blank_nil, ?_⟩
        refine subFrom_interpreter
          ⟨a ++ d ++ ['/'], version, .inr ⟨a ++ d, ?_, ?_, rfl⟩, hversion, ?_⟩ b
        · exact fun hnil => hd (List.append_eq_nil_iff.1 hnil).2
        · rw [List.mem_append, not_or]
          exact ⟨hspace, hspace'⟩
        · simp

/-- No interpreter reaches into the name of the program. -/
theorem Interpreter.not_prefix (hm : Interpreter m) {z : List Char} (hz : z ≠ [])
    (hsuffix : z <:+ m) : ¬z <+: '/' :: "chutes".toList := by
  intro hprefix
  obtain ⟨dir, version, -, hversion, rfl⟩ := hm
  rcases List.suffix_or_suffix_of_suffix hsuffix (List.suffix_append dir _) with h | h
  · -- it is within the name of the interpreter, which has no slash
    rcases z with _ | ⟨c, z⟩
    · exact hz rfl
    · obtain ⟨rest, hrest⟩ := hprefix
      obtain ⟨rfl, -⟩ := List.cons.inj hrest
      have hslash := h.subset List.mem_cons_self
      simp [hversion.slash_notMem] at hslash
  · have hpython : "python".toList <:+: '/' :: "chutes".toList :=
      (List.prefix_append _ version).isInfix.trans (h.isInfix.trans hprefix.isInfix)
    exact absurd hpython (by decide)

/-- **A program stays one**, -/
theorem Program.of_source (hs : Program s) (h : Subst Interpreter "python".toList s t) :
    Program t := by
  have hno : ¬"python".toList <:+: '/' :: "chutes".toList := by decide
  obtain ⟨dir, hdir, rfl⟩ := hs
  rcases hdir with rfl | ⟨d, hd, hspace, rfl⟩
  · rw [← h.eq_of_source fun m hm hi => ?_]
    · exact program_chutes
    · exact absurd (hm.python_infix.trans hi) (by decide)
  · rw [List.append_assoc, List.singleton_append] at h
    obtain ⟨y, rfl, hy⟩ := h.append (fun m z hm => hm.not_prefix)
      fun m hm hi => hno (hm.python_infix.trans hi)
    refine ⟨y ++ ['/'], .inr ⟨y, hy.ne_nil hd (by decide), fun hmem => ?_, rfl⟩, by simp⟩
    rcases hy.mem hmem with hmem | hmem
    · exact hspace hmem
    · exact absurd hmem (by decide)

/-- and it was one. -/
theorem Program.of_out (ht : Program t) (h : Subst Interpreter "python".toList s t) :
    Program s := by
  obtain ⟨dir, hdir, rfl⟩ := ht
  rcases hdir with rfl | ⟨d, hd, hspace, rfl⟩
  · rw [h.eq_of_out (by decide)]
    exact program_chutes
  · rw [List.append_assoc, List.singleton_append] at h
    obtain ⟨u, rfl, hu⟩ := h.of_append (by decide) (by decide)
    refine ⟨u ++ ['/'], .inr ⟨u, ?_, fun hmem => ?_, rfl⟩, by simp⟩
    · rintro rfl
      refine hd (hu.eq_of_source fun m hm hi => ?_).symm
      exact absurd (hm.python_infix.trans hi) (by decide)
    · exact hspace (hu.mem_out (fun m hm => hm.space_notMem) hmem)

/-- **What the second pattern turns into the command**: only the program. -/
theorem programs_eq_iff (hrest : ¬"chutes".toList <:+: rest) :
    programs w false s = "python".toList ++ ' ' :: ("chutes".toList ++ ' ' :: rest) ↔
      ∃ c, Program c ∧ s = "python".toList ++ ' ' :: (c ++ ' ' :: rest) := by
  have hpython : programs w false "python".toList = "python".toList :=
    programs_eq_self (by decide)
  constructor
  · intro h
    obtain ⟨u, v, rfl, hu, hv⟩ := exists_of_programs h
    obtain ⟨c, r, rfl, hc, hr⟩ := exists_of_programs hv
    have hname : u = "python".toList := by
      rw [← hu]
      refine subst_programs.eq_of_out ?_
      rw [hu]
      decide
    have hsame : r = rest := by
      rw [← hr]
      exact subst_programs.eq_of_out (hr ▸ hrest)
    subst hname hsame
    refine ⟨c, ?_, rfl⟩
    have hsubst : Subst Program "chutes".toList c (programs w false c) := subst_programs
    rcases hsubst.eq_or_of_repl hc (by decide) with rfl | hc
    · exact program_chutes
    · exact hc
  · rintro ⟨c, hc, rfl⟩
    have hprogram : programs w false c = "chutes".toList := subFrom_program hc false
    rw [programs_append, programs_append, hpython, hprogram, programs_eq_self hrest]

/-- **What the first pattern turns into a command** was one. -/
theorem exists_of_pythons_eq (hrest : ¬"python".toList <:+: rest) (ha : Blank a) (ht : Program t)
    (h : pythons w false s = a ++ ("python".toList ++ ' ' :: (t ++ ' ' :: rest))) :
    ∃ i c, Interpreter i ∧ Program c ∧ s = a ++ (i ++ ' ' :: (c ++ ' ' :: rest)) := by
  rw [← List.append_assoc] at h
  obtain ⟨u, v, rfl, hu, hv⟩ := exists_of_pythons h
  obtain ⟨c, r, rfl, hc, hr⟩ := exists_of_pythons hv
  have hsame : r = rest := by
    rw [← hr]
    exact subst_pythons.eq_of_out (hr ▸ hrest)
  subst hsame
  obtain ⟨i, hi, rfl⟩ := exists_of_subst_python ha (hu ▸ subst_pythons)
  have hprogram : Program c := ht.of_out (hc ▸ subst_pythons)
  exact ⟨i, c, hi, hprogram, by rw [List.append_assoc]⟩

/-- The arguments do not name the interpreter or the program, and end with
another character than a space. -/
structure Plain (rest : List Char) : Prop where
  python : ¬"python".toList <:+: rest
  chutes : ¬"chutes".toList <:+: rest
  trimmed : ∃ l c, rest = l ++ [c] ∧ isWhitespace c = false

theorem Plain.append (h : Plain rest) (hb : Blank b) : ¬"python".toList <:+: rest ++ b := by
  intro hi
  induction b using List.reverseRecOn with
  | nil => exact h.python (by rwa [List.append_nil] at hi)
  | append_singleton b c ih =>
    have hletters : "python".toList.all fun d => !isWhitespace d := by decide
    have hc : c ∉ "python".toList := by
      intro hmem
      have hletter := List.all_eq_true.1 hletters c hmem
      rw [hb c (by simp)] at hletter
      cases hletter
    rw [← List.append_assoc] at hi
    rcases infix_of_append_cons hc hi with hi | hi
    · exact ih (fun d hd => hb d (List.mem_append_left _ hd)) hi
    · exact absurd hi.length_le (by decide)

theorem Plain.trimmed_command (h : Plain rest) (t : List Char) :
    Trimmed ("python".toList ++ ' ' :: (t ++ ' ' :: rest)) := by
  obtain ⟨l, c, rfl, hc⟩ := h.trimmed
  exact ⟨⟨'p', _, rfl, by decide⟩, "python".toList ++ ' ' :: (t ++ ' ' :: l), c, by simp, hc⟩

/-- **The command lines that pass**, where spaces are removed in between. -/
theorem passes_iff (hrest : Plain rest) :
    programs w false (stripChars (pythons w false s)) =
        "python".toList ++ ' ' :: ("chutes".toList ++ ' ' :: rest) ↔
      ∃ a i c b, Blank a ∧ Interpreter i ∧ Program c ∧ Blank b ∧
        s = a ++ (i ++ ' ' :: (c ++ ' ' :: (rest ++ b))) := by
  rw [programs_eq_iff hrest.chutes]
  constructor
  · rintro ⟨t, ht, hstrip⟩
    obtain ⟨a, b, ha, hb, hs⟩ := exists_stripChars (pythons w false s)
    rw [hstrip, List.append_assoc, List.cons_append, List.append_assoc, List.cons_append] at hs
    obtain ⟨i, c, hi, hc, hs⟩ := exists_of_pythons_eq (hrest.append hb) ha ht hs
    exact ⟨a, i, c, b, ha, hi, hc, hb, hs⟩
  · rintro ⟨a, i, c, b, ha, hi, hc, hb, rfl⟩
    obtain ⟨a', ha', hout⟩ := exists_pythons_interpreter (w := w) ha hi false
    refine ⟨pythons w false c, hc.of_source subst_pythons, ?_⟩
    rw [← List.append_assoc, pythons_append, pythons_append, hout,
      pythons_eq_self (hrest.append hb), List.append_assoc]
    have hassoc : "python".toList ++ ' ' :: (pythons w false c ++ ' ' :: (rest ++ b)) =
        ("python".toList ++ ' ' :: (pythons w false c ++ ' ' :: rest)) ++ b := by simp
    rw [hassoc]
    exact stripChars_append ha' hb (hrest.trimmed_command _)

/-- **The command lines that pass**, where spaces are removed before. -/
theorem passes_trimmed_iff (hrest : Plain rest) :
    programs w false (pythons w false s) =
        "python".toList ++ ' ' :: ("chutes".toList ++ ' ' :: rest) ↔
      ∃ i c, Interpreter i ∧ Program c ∧ s = i ++ ' ' :: (c ++ ' ' :: rest) := by
  rw [programs_eq_iff hrest.chutes]
  constructor
  · rintro ⟨t, ht, hs⟩
    obtain ⟨i, c, hi, hc, hs⟩ := exists_of_pythons_eq (a := []) hrest.python blank_nil ht hs
    exact ⟨i, c, hi, hc, hs⟩
  · rintro ⟨i, c, hi, hc, rfl⟩
    refine ⟨pythons w false c, hc.of_source subst_pythons, ?_⟩
    have hpython : pythons w false i = "python".toList := subFrom_interpreter hi false
    rw [pythons_append, pythons_append, hpython, pythons_eq_self hrest.python]

/-! ## The checks -/

variable {settings : Settings} {chute : Chute} {minerHotkey : String} {seed : Option ℤ} {tls : Bool}
  {parts args : List String}

/-- The arguments that are expected, as the command line has them. -/
def arguments (parts : List String) : List Char :=
  (join ' ' (parts.drop 2)).toList.rdropWhile isWhitespace

/-- What follows the program in every command. -/
theorem exists_of_commandParts
    (hparts : commandParts settings chute minerHotkey seed tls = .ok parts) :
    ∃ args, parts = "python" :: "chutes" :: "run" :: args := by
  simp only [commandParts, bind_eq_ok] at hparts
  obtain ⟨order, -, hparts⟩ := hparts
  split at hparts
  · rw [return_eq_ok] at hparts
    exact ⟨_, hparts.symm⟩
  · rw [return_eq_ok] at hparts
    exact ⟨_, hparts.symm⟩

theorem toList_join_cons (s : String) (hargs : args ≠ []) :
    (join ' ' (s :: args)).toList = s.toList ++ ' ' :: (join ' ' args).toList := by
  rcases args with _ | ⟨t, args⟩
  · exact absurd rfl hargs
  · simp only [join, String.toList_ofList, List.map_cons]
    rw [List.intercalate_cons_cons, List.append_assoc, List.singleton_append]

theorem plain_arguments (hparts : commandParts settings chute minerHotkey seed tls = .ok parts)
    (hplain : ∀ part ∈ parts.drop 2,
      ¬"python".toList <:+: part.toList ∧ ¬"chutes".toList <:+: part.toList) :
    Plain (arguments parts) := by
  obtain ⟨args, rfl⟩ := exists_of_commandParts hparts
  have hjoined : ∀ x : List Char, x ≠ [] → ' ' ∉ x →
      x <:+: arguments ("python" :: "chutes" :: "run" :: args) →
        ∃ part ∈ "run" :: args, x <:+: part.toList := by
    intro x hx hspace hi
    have hi := hi.trans (List.rdropWhile_prefix _ _).isInfix
    rw [join, String.toList_ofList] at hi
    obtain ⟨part, hmem, hpart⟩ := exists_of_infix_intercalate hspace hx hi
    obtain ⟨arg, harg, rfl⟩ := List.mem_map.1 hmem
    exact ⟨arg, harg, hpart⟩
  refine ⟨fun hi => ?_, fun hi => ?_, ?_⟩
  · obtain ⟨part, hmem, hpart⟩ := hjoined _ (by decide) (by decide) hi
    exact (hplain part hmem).1 hpart
  · obtain ⟨part, hmem, hpart⟩ := hjoined _ (by decide) (by decide) hi
    exact (hplain part hmem).2 hpart
  · have hne : arguments ("python" :: "chutes" :: "run" :: args) ≠ [] := by
      intro hnil
      have hall := List.rdropWhile_eq_nil_iff.1 hnil
      have hmem : 'r' ∈ (join ' ' ("run" :: args)).toList := by
        rcases args with _ | ⟨t, args⟩
        · rw [join_singleton]
          decide
        · rw [toList_join_cons _ (List.cons_ne_nil t args)]
          exact List.mem_cons_self
      exact absurd (hall 'r' hmem) (by decide)
    refine ⟨_, _, (List.dropLast_append_getLast hne).symm, ?_⟩
    exact Bool.eq_false_iff.2 (List.rdropWhile_last_not _ _ hne)

/-- **The command that is expected**: the interpreter, the program, the
arguments. -/
theorem toList_expected (hparts : commandParts settings chute minerHotkey seed tls = .ok parts)
    (hplain : Plain (arguments parts)) :
    (trim (join ' ' parts)).toList =
      "python".toList ++ ' ' :: ("chutes".toList ++ ' ' :: arguments parts) := by
  obtain ⟨args, rfl⟩ := exists_of_commandParts hparts
  have hsplit : (join ' ' ("run" :: args)).toList =
      arguments ("python" :: "chutes" :: "run" :: args) ++
        (join ' ' ("run" :: args)).toList.rtakeWhile isWhitespace :=
    List.rdropWhile_append_rtakeWhile.symm
  have hblank : Blank ((join ' ' ("run" :: args)).toList.rtakeWhile isWhitespace) :=
    fun c hc => List.mem_rtakeWhile_imp hc
  rw [trim, String.toList_ofList, toList_join_cons _ (List.cons_ne_nil _ _),
    toList_join_cons _ (List.cons_ne_nil _ _), hsplit]
  have hstrip := stripChars_append blank_nil hblank (hplain.trimmed_command "chutes".toList)
  rw [List.nil_append] at hstrip
  simpa using hstrip

theorem getExpectedCommand_eq
    (hparts : commandParts settings chute minerHotkey seed tls = .ok parts) :
    getExpectedCommand settings chute minerHotkey seed tls = .ok (trim (join ' ' parts)) := by
  rw [getExpectedCommand, hparts]
  rfl

/-- **The command check of a dump** passes exactly if the first process is the
chute's, as the user it has to be, with the command that is expected up to
where the interpreter and the program are, the version of the interpreter,
and spaces around it. -/
theorem verified_iff {allProcesses : List Process}
    (hparts : commandParts settings chute minerHotkey seed tls = .ok parts)
    (hplain : ∀ part ∈ parts.drop 2,
      ¬"python".toList <:+: part.toList ∧ ¬"chutes".toList <:+: part.toList) :
    verifyExpectedCommand w settings allProcesses chute minerHotkey seed tls = .ok () ↔
      ∃ process others, allProcesses = process :: others ∧ process.pid = 1 ∧
        process.username = "chutes" ∧ ∃ a i c b, Blank a ∧ Interpreter i ∧ Program c ∧ Blank b ∧
          process.cmdline.toList = a ++ (i ++ ' ' :: (c ++ ' ' :: (arguments parts ++ b))) := by
  have hrest := plain_arguments hparts hplain
  rcases allProcesses with _ | ⟨process, others⟩
  · simp [verifyExpectedCommand]
  · have hcommand : chutesPattern.sub w "chutes"
          (trim (pythonPattern.sub w "python" process.cmdline)) = trim (join ' ' parts) ↔
        ∃ a i c b, Blank a ∧ Interpreter i ∧ Program c ∧ Blank b ∧
          process.cmdline.toList = a ++ (i ++ ' ' :: (c ++ ' ' :: (arguments parts ++ b))) := by
      rw [← String.toList_inj, toList_expected hparts hrest, ← passes_iff (w := w) hrest]
      simp only [Regex.sub, trim, String.toList_ofList, programs, pythons]
    simp only [verifyExpectedCommand, getExpectedCommand_eq hparts]
    constructor
    · intro h
      split at h
      · cases h
      · next hpid =>
        split at h
        · cases h
        · next huser =>
          split at h
          · next heq =>
            exact ⟨process, others, rfl, not_not.1 hpid, not_not.1 huser, hcommand.1 heq⟩
          · cases h
    · rintro ⟨process', others', heq, hpid, huser, h⟩
      obtain ⟨rfl, rfl⟩ := List.cons.inj heq
      rw [if_neg (not_not.2 hpid), if_neg (not_not.2 huser), if_pos (hcommand.2 h)]

private def validator : Settings := ⟨"5V"⟩

private def served : Chute := ⟨some "0.3.15", "app:chute", "x"⟩

private def commandLine : String := "/usr/bin/python3.11 /opt/chutes run app:chute --port 8000 " ++
  "--miner-ss58 5A --validator-ss58 5V"

private theorem interpreter_python3 : Interpreter "/usr/bin/python3.11".toList := by
  have hdir : Directory "/usr/bin/".toList :=
    .inr ⟨"/usr/bin".toList, by decide, by decide, rfl⟩
  have hdigits : ∀ d ∈ "11".toList, isDecimal d := List.all_eq_true.1 (by decide)
  exact ⟨_, "3.11".toList, hdir,
    ⟨['3'], ".11".toList, rfl, .inr rfl, .inr ⟨"11".toList, by decide, hdigits, rfl⟩⟩, rfl⟩

private theorem program_opt : Program "/opt/chutes".toList :=
  ⟨"/opt/".toList, .inr ⟨"/opt".toList, by decide, by decide, rfl⟩, rfl⟩

private theorem parts_served : commandParts validator served "5A" none false =
    .ok ["python", "chutes", "run", "app:chute", "--port", "8000", "--miner-ss58", "5A",
      "--validator-ss58", "5V"] := by
  decide +kernel

/-- The arguments after these two hold neither of their names. -/
private theorem plain_served : ∀ part ∈ ["run", "app:chute", "--port", "8000", "--miner-ss58",
    "5A", "--validator-ss58", "5V"],
    ¬"python".toList <:+: part.toList ∧ ¬"chutes".toList <:+: part.toList := by
  decide +kernel

theorem verified_commandLine : verifyExpectedCommand .asciiOnly validator
    [⟨1, "chutes", "  " ++ commandLine ++ "\n"⟩] served "5A" none false = .ok () :=
  (verified_iff parts_served plain_served).2
    ⟨_, _, rfl, rfl, rfl, "  ".toList, _, _, "\n".toList, by decide, interpreter_python3,
      program_opt, by decide, by decide +kernel⟩

/-- **The live check** passes exactly if the instance runs the command that is
expected up to where the interpreter and the program are and the version of
the interpreter, and has the chute's code. -/
theorem live_iff {seeds : List (Option ℤ)} {data code : Option (List UInt8)}
    (hseed : liveSeed chute seeds = .ok seed)
    (hparts : commandParts settings chute minerHotkey seed false = .ok parts)
    (hplain : ∀ part ∈ parts.drop 2,
      ¬"python".toList <:+: part.toList ∧ ¬"chutes".toList <:+: part.toList) :
    checkLiveCode w settings chute minerHotkey seeds data code = .ok true ↔
      code = some (utf8 chute.code) ∧ ∃ s i c, data = some (utf8 s) ∧ Interpreter i ∧ Program c ∧
        stripChars (replaceNul s).toList = i ++ ' ' :: (c ++ ' ' :: arguments parts) := by
  have hrest := plain_arguments hparts hplain
  have hcommand : ∀ s : String,
      chutesPattern.sub w "chutes" (pythonPattern.sub w "python" (trim (trim (replaceNul s)))) =
        trim (join ' ' parts) ↔ ∃ i c, Interpreter i ∧ Program c ∧
          stripChars (replaceNul s).toList = i ++ ' ' :: (c ++ ' ' :: arguments parts) := by
    intro s
    rw [← String.toList_inj, toList_expected hparts hrest, ← passes_trimmed_iff (w := w) hrest]
    simp only [Regex.sub, trim, String.toList_ofList, programs, pythons, stripChars_stripChars]
  constructor
  · intro h
    rcases data with _ | ⟨_ | ⟨d, data⟩⟩
    · simp [checkLiveCode] at h
    · simp [checkLiveCode] at h
    · simp only [checkLiveCode, hseed, bind_eq_ok] at h
      obtain ⟨s, hs, seed', hseed', expected, hexpected, h⟩ := h
      cases hseed'
      rw [getExpectedCommand_eq hparts] at hexpected
      obtain rfl := Except.ok.inj hexpected
      rw [decodeUtf8_eq_ok] at hs
      split at h
      · cases h
      · next hequal =>
        obtain ⟨i, c, hi, hc, htext⟩ := (hcommand s).1 (not_not.1 hequal)
        rw [return_eq_ok, decide_eq_true_eq] at h
        exact ⟨h, s, i, c, by rw [hs], hi, hc, htext⟩
  · rintro ⟨hcode, s, i, c, rfl, hi, hc, htext⟩
    have hequal := (hcommand s).2 ⟨i, c, hi, hc, htext⟩
    rcases hdata : utf8 s with _ | ⟨d, rest⟩
    · -- an empty text has no interpreter
      have hempty : decodeUtf8 [] = .ok s := decodeUtf8_eq_ok.2 hdata
      rw [show decodeUtf8 [] = .ok "" from decodeUtf8_eq_ok.2 rfl] at hempty
      rw [← Except.ok.inj hempty] at htext
      simp [replaceNul, stripChars] at htext
    · have hdecode : decodeUtf8 (d :: rest) = .ok s := decodeUtf8_eq_ok.2 hdata
      simp only [checkLiveCode, bind_eq_ok]
      refine ⟨s, hdecode, seed, hseed, _, getExpectedCommand_eq hparts, ?_⟩
      rw [if_neg (not_not.2 hequal), return_eq_ok, decide_eq_true hcode]

theorem live_commandLine : checkLiveCode .asciiOnly validator served "5A" []
    (some (utf8 commandLine)) (some (utf8 "x")) = .ok true :=
  (live_iff (rfl : liveSeed served [] = .ok none) parts_served plain_served).2
    ⟨rfl, commandLine, _, _, rfl, interpreter_python3, program_opt, by decide +kernel⟩

end Command

end Watchtower

end ChutesApi
