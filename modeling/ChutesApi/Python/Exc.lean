import Mathlib.Data.List.Basic
/-!
# Exceptions

A handler either returns or raises: an `HTTPException` with its status and
detail, or another exception, which the server turns into a 500. Handlers
are written in `Except Exc`; `bind_eq_ok` and `ensure_eq_ok` say when a
sequence of checks gets through. A script that no client waits for raises a
`ScriptError`.
-/

namespace ChutesApi

namespace Python

/-- An exception that is not an `HTTPException`. -/
inductive PyError
  | valueError
  | typeError
  | attributeError
  | keyError
  | multipleResultsFound
  | integrityError
  /-- Any other, raised by a library. -/
  | other
  deriving DecidableEq, Repr

/-- What a handler raises. -/
inductive Exc
  | http (status : ℕ) (detail : String)
  | raised (error : PyError)
  deriving DecidableEq, Repr

/-- What a script raises: it has no client to answer. -/
inductive ScriptError
  | keyError
  | indexError
  | zeroDivisionError
  | valueError (message : String)
  | exception (message : String)
  deriving DecidableEq, Repr

/-- `if not p: raise e`. -/
def ensure (p : Prop) [Decidable p] (e : Exc) : Except Exc Unit :=
  if p then .ok () else .error e

universe u

variable {α β : Type u} {ε ε' : Type*}

/-- A query's `scalar_one_or_none()`. -/
def scalarOneOrNone : List α → Except Exc (Option α)
  | [] => .ok none
  | [a] => .ok (some a)
  | _ => .error (.raised .multipleResultsFound)

/-! ## When a sequence of checks gets through -/

/-- A sequence returns when its first part does and then the rest does. -/
theorem bind_eq_ok {x : Except ε α} {k : α → Except ε β} {r : β} :
    x >>= k = .ok r ↔ ∃ a, x = .ok a ∧ k a = .ok r := by
  rcases x with e | a <;> simp [bind, Except.bind]

@[simp] theorem ensure_eq_ok {p : Prop} [Decidable p] {e : Exc} {u : Unit} :
    ensure p e = .ok u ↔ p := by
  unfold ensure
  split <;> simp_all

/-- A sequence raises what its first part does, or what the rest does. -/
theorem bind_eq_error {x : Except ε α} {k : α → Except ε β} {e : ε} :
    x >>= k = .error e ↔ x = .error e ∨ ∃ a, x = .ok a ∧ k a = .error e := by
  rcases x with e' | a <;> simp [bind, Except.bind]

@[simp] theorem ensure_eq_error {p : Prop} [Decidable p] {e e' : Exc} :
    ensure p e = .error e' ↔ ¬ p ∧ e = e' := by
  unfold ensure
  split <;> simp_all

@[simp] theorem return_eq_ok {a r : α} : (pure a : Except ε α) = .ok r ↔ a = r := by
  simp [pure, Except.pure]

@[simp] theorem raise_ne_ok {e : ε} {r : α} : ¬(throw e : Except ε α) = .ok r := by
  simp [throw, throwThe, MonadExceptOf.throw]

theorem map_eq_ok {x : Except ε α} {f : α → β} {r : β} :
    f <$> x = .ok r ↔ ∃ a, x = .ok a ∧ f a = r := by
  rcases x with e | a <;> simp [Functor.map, Except.map]

theorem toOption_eq_some {x : Except ε α} {a : α} : x.toOption = some a ↔ x = .ok a := by
  rcases x with e | b
  · exact iff_of_false (Option.some_ne_none a).symm (by simp)
  · exact ⟨fun h => congrArg Except.ok (Option.some.inj h),
      fun h => congrArg some (Except.ok.inj h)⟩

/-- An `except` clause that raises does not return. -/
@[simp] theorem mapError_eq_ok {f : ε → ε'} {x : Except ε α} {a : α} :
    x.mapError f = .ok a ↔ x = .ok a := by
  rcases x with e | b <;> simp [Except.mapError]

/-- A loop of checks gets through when each of them does. -/
theorem forM_eq_ok {l : List α} {f : α → Except ε PUnit} (h : ∀ a ∈ l, f a = .ok ⟨⟩) :
    l.forM f = .ok ⟨⟩ := by
  induction l with
  | nil => rfl
  | cons a l ih =>
    change (f a >>= fun _ => l.forM f) = .ok ⟨⟩
    rw [h a List.mem_cons_self]
    exact ih fun b hb => h b (List.mem_cons_of_mem a hb)

/-- **The rule for a loop of checks that carries a value.** -/
theorem foldlM_rule {l : List α} {f : β → α → Except ε β} {P : β → Prop} {b r : β} (hb : P b)
    (hstep : ∀ b a b', a ∈ l → P b → f b a = .ok b' → P b') (h : l.foldlM f b = .ok r) :
    P r := by
  induction l generalizing b with
  | nil =>
    rw [List.foldlM_nil, return_eq_ok] at h
    exact h ▸ hb
  | cons a l ih =>
    rw [List.foldlM_cons, bind_eq_ok] at h
    obtain ⟨b', hb', h⟩ := h
    have hnext : P b' := hstep b a b' List.mem_cons_self hb hb'
    exact ih hnext (fun b a b' ha => hstep b a b' (List.mem_cons_of_mem _ ha)) h

/-- Where such a loop gets through, each of its checks did. -/
theorem exists_of_foldlM_eq_ok {l : List α} {f : β → α → Except ε β} {a : α} {b r : β}
    (h : l.foldlM f b = .ok r) (ha : a ∈ l) : ∃ c c', f c a = .ok c' := by
  induction l generalizing b with
  | nil => cases ha
  | cons x l ih =>
    rw [List.foldlM_cons, bind_eq_ok] at h
    obtain ⟨b', hb', h⟩ := h
    rcases List.mem_cons.1 ha with rfl | ha
    · exact ⟨b, b', hb'⟩
    · exact ih h ha

/-- What a loop returns are results of its checks. -/
theorem exists_of_mapM_eq_ok {l : List α} {f : α → Except ε β} {bs : List β} {b : β}
    (h : l.mapM f = .ok bs) (hb : b ∈ bs) : ∃ a ∈ l, f a = .ok b := by
  induction l generalizing bs with
  | nil =>
    rw [List.mapM_nil, return_eq_ok] at h
    rw [← h] at hb
    cases hb
  | cons a l ih =>
    simp only [List.mapM_cons, bind_eq_ok, return_eq_ok] at h
    obtain ⟨b', hb', bs', hbs', rfl⟩ := h
    rcases List.mem_cons.1 hb with rfl | hb
    · exact ⟨a, List.mem_cons_self, hb'⟩
    · obtain ⟨c, hc, hcb⟩ := ih hbs' hb
      exact ⟨c, List.mem_cons_of_mem _ hc, hcb⟩

theorem scalarOneOrNone_eq_some {l : List α} {a : α} :
    scalarOneOrNone l = .ok (some a) ↔ l = [a] := by
  rcases l with _ | ⟨b, _ | ⟨c, l⟩⟩ <;> simp [scalarOneOrNone]

/-- What a query finds is a row that meets its condition. -/
theorem mem_of_scalarOneOrNone {l : List α} {p : α → Bool} {a : α}
    (h : scalarOneOrNone (l.filter p) = .ok (some a)) : a ∈ l ∧ p a := by
  rw [← List.mem_filter, scalarOneOrNone_eq_some.1 h]
  exact List.mem_singleton_self a

end Python

end ChutesApi
