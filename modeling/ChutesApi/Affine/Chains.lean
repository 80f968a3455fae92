import ChutesApi.Affine.Flow
import ChutesApi.Common.Chain
import Mathlib.Data.List.ReduceOption
/-!
# The chains of a module's text

Every rule of evaluation passes on one thing, so an expression evaluates to
a value because of one fact: what one variable holds, or what code that is
not in view has been handed. Which facts these are can be read off the
expression, and which fact each of them leads to off the nodes of the text.
So a fact comes about in a run exactly when a chain of such links leads to
it from the imports and gateways.
-/

namespace ChutesApi

namespace Affine

/-- What an expression can have its value from. -/
inductive Fact
  /-- The text alone. -/
  | always
  | bound (name : String) (v : Value)
  | handed (t : Thing)
  deriving DecidableEq, Repr

def State.Holds (s : State) : Fact → Prop
  | .always => True
  | .bound name v => s.vars name = some v
  | .handed t => t ∈ s.outside

def Thing.all : List Thing := [.os, .gateway, .builder .vllm, .builder .sglang]

def Value.all : List Value := Thing.all.flatMap fun t => [⟨t, false⟩, ⟨t, true⟩]

@[simp] theorem Thing.mem_all (t : Thing) : t ∈ Thing.all := by
  cases t with
  | builder k => cases k <;> decide
  | _ => decide

@[simp] theorem Value.mem_all (v : Value) : v ∈ Value.all := by
  obtain ⟨t, inside⟩ := v
  cases inside <;> simp [Value.all]

/-! ## What the text says -/

/-- What code that is not in view can give. -/
def fromUnseen : List (Fact × Value) := Value.all.map fun v => (.handed v.thing, v)

/-- The values that another is passed on as. -/
def through (f : Value → List Value) (l : List (Fact × Value)) : List (Fact × Value) :=
  l.flatMap fun d => (f d.2).map (d.1, ·)

namespace Ast

mutual

/-- **What an expression can evaluate to, and the fact it has it from.** -/
def draws : Ast → List (Fact × Value)
  | .name id _ =>
    Value.all.map (fun v => (.bound id v, v)) ++
      if id ∈ gateways then [(.always, ⟨.gateway, false⟩)] else []
  | .ifExp _ body orelse => draws body ++ draws orelse
  | .boolOp values => drawsOf values
  | .namedExpr _ value => draws value
  | .display elts _ => through (fun v => [v.held]) (drawsOf elts)
  | .dict keys values => through (fun v => [v.held]) (drawsOfKeys keys ++ drawsOf values)
  | .attributeRef value attr _ => through (Value.member attr) (draws value) ++ fromUnseen
  | .subscript value _ _ => through Value.part (draws value) ++ fromUnseen
  | .call func _ _ => through Value.part (draws func) ++ fromUnseen
  | .binOp .. | .lambda _ | .forbidden .. | .other _ => fromUnseen
  | _ => []

def drawsOf : List Ast → List (Fact × Value)
  | [] => []
  | a :: as => draws a ++ drawsOf as

def drawsOfKey : Option Ast → List (Fact × Value)
  | none => []
  | some a => draws a

def drawsOfKeys : List (Option Ast) → List (Fact × Value)
  | [] => []
  | a :: as => drawsOfKey a ++ drawsOfKeys as

end

end Ast

def Source.draws : Source → List (Fact × Value)
  | .module name => if name = "os" then [(.always, ⟨.os, false⟩)] else []
  | .builder k => [(.always, ⟨.builder k, false⟩)]
  | .value e => e.draws
  | .holder e => through (fun v => [v.held]) e.draws
  | .element e => through Value.part e.draws ++ fromUnseen
  | .object => []
  | .unseen => fromUnseen

namespace Ast

/-- The facts by which a node goes through a gateway. -/
def openedBy (a : Ast) : List Fact :=
  (a.hands ++ a.calls.map Call.func).flatMap (fun e =>
      (e.draws.filter (·.2.thing = .gateway)).map Prod.fst) ++
    if a.isOpening then [.always] else []

/-- **What a node can bring about, and the fact it does it by.** -/
def links (a : Ast) : List (Fact × Fact) :=
  a.bindings.flatMap (fun w => w.2.draws.map fun d => (d.1, .bound w.1 d.2)) ++
    a.hands.flatMap (fun e => e.draws.map fun d => (d.1, .handed d.2.thing)) ++
    a.calls.flatMap (fun c => (c.func.draws.filter (·.2.inside)).map fun d =>
      (d.1, .handed d.2.thing)) ++
    a.openedBy.flatMap fun f => Thing.all.map fun t => (f, .handed t)

end Ast

/-- **The links of a module**, node by node. -/
def links (body : List Ast) : List (Fact × Fact) := (root body).walk.flatMap (·.ast.links)

/-- **A chain of the module's links leads to the fact.** -/
def Chain (body : List Ast) (f : Fact) : Prop :=
  Relation.ReflTransGen (fun f g => (f, g) ∈ links body) .always f

instance (body : List Ast) (f : Fact) : Decidable (Chain body f) :=
  decidable_of_iff (f ∈ Chain.follow (links body) (links body).length [.always])
    Chain.mem_follow_iff

/-! ## Evaluation against the text -/

variable {s s' : State} {a e : Ast} {f g : Fact} {v w : Value} {body : List Ast}

theorem mem_through {p : Value → List Value} {l : List (Fact × Value)} :
    (f, w) ∈ through p l ↔ ∃ v, (f, v) ∈ l ∧ w ∈ p v := by
  simp only [through, List.mem_flatMap, List.mem_map, Prod.mk.injEq, Prod.exists]
  constructor
  · rintro ⟨_, v, hv, w, hw, rfl, rfl⟩
    exact ⟨v, hv, hw⟩
  · rintro ⟨v, hv, hw⟩
    exact ⟨f, v, hv, w, hw, rfl, rfl⟩

theorem mem_fromUnseen : (f, v) ∈ fromUnseen ↔ f = .handed v.thing := by
  simp only [fromUnseen, List.mem_map, Prod.mk.injEq]
  constructor
  · rintro ⟨v, -, rfl, rfl⟩
    rfl
  · rintro rfl
    exact ⟨v, v.mem_all, rfl, rfl⟩

theorem Ast.mem_drawsOf {l : List Ast} {d : Fact × Value} :
    d ∈ Ast.drawsOf l ↔ ∃ e ∈ l, d ∈ e.draws := by
  induction l with
  | nil => simp [Ast.drawsOf]
  | cons a l ih => simp [Ast.drawsOf, ih]

theorem Ast.mem_drawsOfKeys {l : List (Option Ast)} {d : Fact × Value} :
    d ∈ Ast.drawsOfKeys l ↔ ∃ e, some e ∈ l ∧ d ∈ e.draws := by
  induction l with
  | nil => simp [Ast.drawsOfKeys]
  | cons o l ih => cases o <;> simp [Ast.drawsOfKeys, Ast.drawsOfKey, ih]

/-- What code that is not in view decides on can be what it has been handed. -/
theorem Ast.mem_draws_of_isOpen (h : a.isOpen) : (.handed v.thing, v) ∈ a.draws := by
  unfold Ast.isOpen at h
  split at h
  all_goals first
    | simp [Ast.draws, mem_fromUnseen]
    | cases h

/-- **An expression evaluates to a value by a fact of the state.** -/
theorem exists_draws (h : Evals s e v) : ∃ f, s.Holds f ∧ (f, v) ∈ e.draws := by
  induction h with
  | @var id ctx v h => exact ⟨.bound id v, h, by simp [Ast.draws]⟩
  | builtin h => exact ⟨.always, trivial, by simp [Ast.draws, h]⟩
  | body _ ih =>
    obtain ⟨f, hf, hd⟩ := ih
    exact ⟨f, hf, by simp [Ast.draws, hd]⟩
  | orelse _ ih =>
    obtain ⟨f, hf, hd⟩ := ih
    exact ⟨f, hf, by simp [Ast.draws, hd]⟩
  | operand he _ ih =>
    obtain ⟨f, hf, hd⟩ := ih
    exact ⟨f, hf, by rw [Ast.draws]; exact Ast.mem_drawsOf.2 ⟨_, he, hd⟩⟩
  | walrus _ ih =>
    obtain ⟨f, hf, hd⟩ := ih
    exact ⟨f, hf, by rwa [Ast.draws]⟩
  | element he _ ih =>
    obtain ⟨f, hf, hd⟩ := ih
    refine ⟨f, hf, ?_⟩
    rw [Ast.draws]
    exact mem_through.2 ⟨_, Ast.mem_drawsOf.2 ⟨_, he, hd⟩, List.mem_singleton_self _⟩
  | key he _ ih =>
    obtain ⟨f, hf, hd⟩ := ih
    refine ⟨f, hf, ?_⟩
    rw [Ast.draws]
    exact mem_through.2 ⟨_, List.mem_append_left _ (Ast.mem_drawsOfKeys.2 ⟨_, he, hd⟩),
      List.mem_singleton_self _⟩
  | entry he _ ih =>
    obtain ⟨f, hf, hd⟩ := ih
    refine ⟨f, hf, ?_⟩
    rw [Ast.draws]
    exact mem_through.2 ⟨_, List.mem_append_right _ (Ast.mem_drawsOf.2 ⟨_, he, hd⟩),
      List.mem_singleton_self _⟩
  | member _ hw ih | subscript _ hw ih | call _ hw ih =>
    obtain ⟨f, hf, hd⟩ := ih
    refine ⟨f, hf, ?_⟩
    rw [Ast.draws]
    exact List.mem_append_left _ (mem_through.2 ⟨_, hd, hw⟩)
  | @unseen a v ha hv => exact ⟨.handed v.thing, hv, Ast.mem_draws_of_isOpen ha⟩

/-- What comes from code that is not in view. -/
theorem evals_of_unseen (ha : a.isOpen) (hf : s.Holds f) (h : (f, v) ∈ fromUnseen) :
    Evals s a v := by
  obtain rfl := mem_fromUnseen.1 h
  exact .unseen ha hf

/-- And by such a fact it evaluates to it. -/
theorem evals_of_draws (hf : s.Holds f) (h : (f, v) ∈ e.draws) : Evals s e v := by
  induction hn : e.size using Nat.strong_induction_on generalizing e v with
  | _ n ih =>
  have hchild : ∀ c ∈ e.children, ∀ {v}, (f, v) ∈ c.draws → Evals s c v := by
    intro c hc v hv
    exact ih c.size (hn ▸ Ast.size_lt_of_mem_children hc) hv rfl
  cases e with
  | name id ctx =>
    rw [Ast.draws, List.mem_append] at h
    rcases h with h | h
    · obtain ⟨v, -, hv⟩ := List.mem_map.1 h
      cases hv
      exact .var hf
    · split at h
      · rename_i hid
        cases List.mem_singleton.1 h
        exact .builtin hid
      · cases h
  | ifExp test body orelse =>
    rw [Ast.draws, List.mem_append] at h
    rcases h with h | h
    · exact .body (hchild body (by simp [Ast.children]) h)
    · exact .orelse (hchild orelse (by simp [Ast.children]) h)
  | boolOp values =>
    rw [Ast.draws] at h
    obtain ⟨c, hc, h⟩ := Ast.mem_drawsOf.1 h
    exact .operand hc (hchild c (by simp [Ast.children, hc]) h)
  | namedExpr target value =>
    rw [Ast.draws] at h
    exact .walrus (hchild value (by simp [Ast.children]) h)
  | display elts ctx =>
    rw [Ast.draws] at h
    obtain ⟨w, hw, hv⟩ := mem_through.1 h
    obtain rfl := List.mem_singleton.1 hv
    obtain ⟨c, hc, hw⟩ := Ast.mem_drawsOf.1 hw
    exact .element hc (hchild c (by simp [Ast.children, hc]) hw)
  | dict keys values =>
    rw [Ast.draws] at h
    obtain ⟨w, hw, hv⟩ := mem_through.1 h
    obtain rfl := List.mem_singleton.1 hv
    rcases List.mem_append.1 hw with hw | hw
    · obtain ⟨c, hc, hw⟩ := Ast.mem_drawsOfKeys.1 hw
      exact .key hc (hchild c (by simp [Ast.children, List.reduceOption_mem_iff, hc]) hw)
    · obtain ⟨c, hc, hw⟩ := Ast.mem_drawsOf.1 hw
      exact .entry hc (hchild c (by simp [Ast.children, hc]) hw)
  | attributeRef value attr ctx =>
    rw [Ast.draws, List.mem_append] at h
    rcases h with h | h
    · obtain ⟨w, hw, hv⟩ := mem_through.1 h
      exact .member (hchild value (by simp [Ast.children]) hw) hv
    · exact evals_of_unseen rfl hf h
  | subscript value slice ctx =>
    rw [Ast.draws, List.mem_append] at h
    rcases h with h | h
    · obtain ⟨w, hw, hv⟩ := mem_through.1 h
      exact .subscript (hchild value (by simp [Ast.children]) hw) hv
    · exact evals_of_unseen rfl hf h
  | call func args keywords =>
    rw [Ast.draws, List.mem_append] at h
    rcases h with h | h
    · obtain ⟨w, hw, hv⟩ := mem_through.1 h
      exact .call (hchild func (by simp [Ast.children]) hw) hv
    · exact evals_of_unseen rfl hf h
  | binOp | lambda | forbidden | other =>
    rw [Ast.draws] at h
    exact evals_of_unseen rfl hf h
  | _ => simp [Ast.draws] at h

/-- **Evaluation against what the text says.** -/
theorem evals_iff : Evals s e v ↔ ∃ f, s.Holds f ∧ (f, v) ∈ e.draws := by
  constructor
  · exact exists_draws
  · rintro ⟨f, hf, h⟩
    exact evals_of_draws hf h

theorem yields_iff {src : Source} :
    src.Yields s v ↔ ∃ f, s.Holds f ∧ (f, v) ∈ src.draws := by
  constructor
  · intro h
    cases h with
    | module | builder => exact ⟨.always, trivial, List.mem_singleton_self _⟩
    | value h => exact exists_draws h
    | holder h =>
      obtain ⟨f, hf, hd⟩ := exists_draws h
      refine ⟨f, hf, ?_⟩
      rw [Source.draws]
      exact mem_through.2 ⟨_, hd, List.mem_singleton_self _⟩
    | element h hw =>
      obtain ⟨f, hf, hd⟩ := exists_draws h
      exact ⟨f, hf, List.mem_append_left _ (mem_through.2 ⟨_, hd, hw⟩)⟩
    | next h => exact ⟨.handed v.thing, h, List.mem_append_right _ (mem_fromUnseen.2 rfl)⟩
    | unseen h => exact ⟨.handed v.thing, h, mem_fromUnseen.2 rfl⟩
  · rintro ⟨f, hf, h⟩
    cases src with
    | module name =>
      rw [Source.draws] at h
      split at h
      · rename_i hname
        cases List.mem_singleton.1 h
        rw [hname]
        exact .module
      · cases h
    | builder k =>
      cases List.mem_singleton.1 h
      exact .builder
    | value e => exact .value (evals_of_draws hf h)
    | holder e =>
      rw [Source.draws] at h
      obtain ⟨w, hw, hv⟩ := mem_through.1 h
      obtain rfl := List.mem_singleton.1 hv
      exact .holder (evals_of_draws hf hw)
    | element e =>
      rcases List.mem_append.1 h with h | h
      · obtain ⟨w, hw, hv⟩ := mem_through.1 h
        exact .element (evals_of_draws hf hw) hv
      · obtain rfl := mem_fromUnseen.1 h
        exact .next hf
    | object => cases h
    | unseen =>
      obtain rfl := mem_fromUnseen.1 h
      exact .unseen hf

theorem opens_iff : Opens s a ↔ ∃ f, s.Holds f ∧ f ∈ a.openedBy := by
  simp only [Opens, Ast.openedBy, List.mem_append, List.mem_flatMap, evals_iff]
  constructor
  · rintro (⟨e, he, inside, f, hf, hd⟩ | h)
    · refine ⟨f, hf, .inl ⟨e, he, ?_⟩⟩
      exact List.mem_map.2 ⟨_, List.mem_filter.2 ⟨hd, by simp⟩, rfl⟩
    · exact ⟨.always, trivial, .inr (by simp [h])⟩
  · rintro ⟨f, hf, ⟨e, he, hmem⟩ | h⟩
    · obtain ⟨d, hd, rfl⟩ := List.mem_map.1 hmem
      obtain ⟨hd, ht⟩ := List.mem_filter.1 hd
      obtain ⟨f, t, inside⟩ := d
      obtain rfl : t = .gateway := by simpa using ht
      exact .inl ⟨e, he, inside, f, hf, hd⟩
    · split at h
      · rename_i ho
        exact .inr ho
      · cases h

/-! ## Runs against chains -/

theorem mem_links : (f, g) ∈ links body ↔
    ∃ a, (Ast.module body).Within a ∧ (f, g) ∈ a.links := mem_flatMap_walk

theorem Ast.mem_links : (f, g) ∈ a.links ↔
    (∃ w ∈ a.bindings, ∃ v, (f, v) ∈ w.2.draws ∧ g = .bound w.1 v) ∨
    (∃ e ∈ a.hands, ∃ v, (f, v) ∈ e.draws ∧ g = .handed v.thing) ∨
    (∃ c ∈ a.calls, ∃ t, (f, ⟨t, true⟩) ∈ c.func.draws ∧ g = .handed t) ∨
    f ∈ a.openedBy ∧ ∃ t, g = .handed t := by
  simp only [Ast.links, List.mem_append, List.mem_flatMap, List.mem_map, List.mem_filter,
    Prod.mk.injEq, Prod.exists, or_assoc]
  refine or_congr ?_ (or_congr ?_ (or_congr ?_ ?_))
  · constructor
    · rintro ⟨id, src, hw, f, v, hd, rfl, rfl⟩
      exact ⟨id, src, hw, v, hd, rfl⟩
    · rintro ⟨id, src, hw, v, hd, rfl⟩
      exact ⟨id, src, hw, f, v, hd, rfl, rfl⟩
  · constructor
    · rintro ⟨e, he, f, v, hd, rfl, rfl⟩
      exact ⟨e, he, v, hd, rfl⟩
    · rintro ⟨e, he, v, hd, rfl⟩
      exact ⟨e, he, f, v, hd, rfl, rfl⟩
  · constructor
    · rintro ⟨c, hc, f, ⟨t, inside⟩, ⟨hd, hin⟩, rfl, rfl⟩
      obtain rfl : inside = true := hin
      exact ⟨c, hc, t, hd, rfl⟩
    · rintro ⟨c, hc, t, hd, rfl⟩
      exact ⟨c, hc, f, ⟨t, true⟩, ⟨hd, rfl⟩, rfl, rfl⟩
  · constructor
    · rintro ⟨f, hf, t, -, rfl, rfl⟩
      exact ⟨hf, t, rfl⟩
    · rintro ⟨hf, t, rfl⟩
      exact ⟨f, hf, t, t.mem_all, rfl, rfl⟩

/-- What a binding leaves as it was. -/
theorem State.holds_bind {id : String} {o : Option Value} (h : (s.bind id o).Holds g) :
    s.Holds g ∨ ∃ v, o = some v ∧ g = .bound id v := by
  cases g with
  | bound name v =>
    simp only [State.Holds, State.bind, Function.update_apply] at h
    split at h
    · rename_i hid
      exact .inr ⟨v, h, by rw [hid]⟩
    · exact .inl h
  | _ => exact .inl h

theorem State.holds_hand {t : Thing} (h : (s.hand t).Holds g) : s.Holds g ∨ g = .handed t := by
  cases g with
  | handed t' =>
    rcases Set.mem_insert_iff.1 h with rfl | h
    · exact .inr rfl
    · exact .inl h
  | _ => exact .inl h

/-- What a step brings about is linked to a fact before it. -/
theorem holds_of_step (h : Step body s s') (hg : s'.Holds g) :
    s.Holds g ∨ ∃ f, s.Holds f ∧ (f, g) ∈ links body := by
  cases h with
  | bind ha hw hy =>
    rcases State.holds_bind hg with hg | ⟨v, hv, rfl⟩
    · exact .inl hg
    · cases hv
      obtain ⟨f, hf, hd⟩ := yields_iff.1 hy
      exact .inr ⟨f, hf, mem_links.2 ⟨_, ha, Ast.mem_links.2 (.inl ⟨_, hw, _, hd, rfl⟩)⟩⟩
  | rebind ha hw =>
    rcases State.holds_bind hg with hg | ⟨v, hv, -⟩
    · exact .inl hg
    · cases hv
  | hand ha he hv =>
    rcases State.holds_hand hg with hg | rfl
    · exact .inl hg
    · obtain ⟨f, hf, hd⟩ := exists_draws hv
      exact .inr ⟨f, hf, mem_links.2 ⟨_, ha, Ast.mem_links.2 (.inr (.inl ⟨_, he, _, hd, rfl⟩))⟩⟩
  | call ha hc hv =>
    rcases State.holds_hand hg with hg | rfl
    · exact .inl hg
    · obtain ⟨f, hf, hd⟩ := exists_draws hv
      exact .inr ⟨f, hf, mem_links.2 ⟨_, ha,
        Ast.mem_links.2 (.inr (.inr (.inl ⟨_, hc, _, hd, rfl⟩)))⟩⟩
  | run ha ho =>
    rcases State.holds_hand hg with hg | rfl
    · exact .inl hg
    · obtain ⟨f, hf, hd⟩ := opens_iff.1 ho
      exact .inr ⟨f, hf, mem_links.2 ⟨_, ha, Ast.mem_links.2 (.inr (.inr (.inr ⟨hd, _, rfl⟩)))⟩⟩

/-- A link is followed by a step. -/
theorem exists_step (hf : s.Holds f) (h : (f, g) ∈ links body) :
    ∃ s', Step body s s' ∧ s'.Holds g := by
  obtain ⟨a, ha, h⟩ := mem_links.1 h
  rcases Ast.mem_links.1 h with ⟨w, hw, v, hd, rfl⟩ | ⟨e, he, v, hd, rfl⟩ | ⟨c, hc, t, hd, rfl⟩ |
    ⟨ho, t, rfl⟩
  · refine ⟨_, .bind ha hw (yields_iff.2 ⟨f, hf, hd⟩), ?_⟩
    simp [State.Holds, State.bind]
  · exact ⟨_, .hand ha he (evals_of_draws hf hd), Set.mem_insert _ _⟩
  · exact ⟨_, .call ha hc (evals_of_draws hf hd), Set.mem_insert _ _⟩
  · exact ⟨_, .run ha (opens_iff.2 ⟨f, hf, ho⟩), Set.mem_insert _ _⟩

theorem linked (body : List Ast) :
    Linked (Step body) State.Holds fun f g => (f, g) ∈ links body :=
  ⟨holds_of_step, exists_step⟩

theorem State.holds_empty : State.empty.Holds f ↔ f = .always := by
  cases f <;> simp [State.Holds, State.empty]

/-- **A fact comes about in a run exactly when a chain of the text leads to
it.** -/
theorem exists_reached_iff : (∃ s, Reached body s ∧ s.Holds f) ↔ Chain body f :=
  (linked body).exists_holds_iff fun _ => State.holds_empty

end Affine

end ChutesApi
