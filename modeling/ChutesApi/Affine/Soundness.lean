import ChutesApi.Affine.Chains
/-!
# The check of affine code against the `os` module

The check looks at the attributes of the name `os`, and that is all of the
module it looks at: an attribute is let through wherever its value is
spelled otherwise. So an accepted module keeps to `os.environ` and
`os.getenv` exactly when no chain of its text leads from an import of the
module, or from a gateway, to an expression that is asked for another
attribute and is not that name. A module that imports `os` under its own
name, uses the name for attributes alone and names neither a gateway nor an
attribute that opens a namespace is of this kind.
-/

namespace ChutesApi

namespace Affine

namespace Ast

def isAttribute : Ast → Bool
  | .attributeRef .. => true
  | _ => false

/-- An import binds no other name than `os`. -/
def importsPlain : Ast → Bool
  | .imports names => names.all fun a => (importOf a).1 = "os"
  | _ => true

def namesGateway : Ast → Bool
  | .name id _ => id ∈ gateways
  | _ => false

/-- The node does not take part in passing `os` on. -/
def plain (a : Ast) : Bool :=
  a.importsPlain && !a.namesGateway && !a.isOpening &&
    (a.isAttribute || a.children.all fun c => !c.isName "os")

/-- A class pattern that may ask for an attribute that is not a permitted
one. -/
def matchesOther : Ast → Bool
  | .matchClass _ patterns kwdAttrs _ => patterns ≠ [] || kwdAttrs.any (· ∉ permitted)
  | _ => false

/-- **The facts by which a node evaluates an attribute of `os`**, apart from
the permitted ones and those of the bare name. -/
def asks (a : Ast) : List Fact :=
  (a.reads.filter fun r => !r.1.isName "os" && r.2 ∉ permitted).flatMap (fun r =>
      (r.1.draws.filter (·.2 = ⟨.os, false⟩)).map Prod.fst) ++
    (if a.matchesOther then [.handed .os] else []) ++ a.openedBy

/-- The children of a node other than a function that it calls. -/
def besides : Ast → List Ast
  | .call _ args keywords => args ++ keywords
  | a => a.children

end Ast

/-- **What a module may not come to**: the facts by which one of its nodes
asks an alias of `os`, or a gateway, for more than is permitted. -/
def asked (body : List Ast) : List Fact := (root body).walk.flatMap (·.ast.asks)

/-- **The module makes no alias of `os`.** -/
def Unaliased (body : List Ast) : Prop := ∀ n ∈ (root body).walk, n.ast.plain

instance (body : List Ast) : Decidable (Unaliased body) :=
  inferInstanceAs (Decidable (∀ n ∈ (root body).walk, n.ast.plain))

variable {parse : String → Except ParseError (List Ast)} {code text : String}
variable {body : List Ast} {a p e o value : Ast} {attr id : String} {ctx : Ctx}
variable {s s' : State} {v w : Value} {f : Fact}

/-! ## What an accepted module passed -/

theorem refuse_eq_ok {reason : Option String} {u : Unit} :
    refuse reason = .ok u ↔ reason = none := by
  cases reason <;> simp [refuse]

/-- An accepted module is one whose tree was accepted. -/
theorem checkTree_of_accepted (hp : parse code = .ok body)
    (hc : checkAffineCode parse code = .ok (true, text)) : checkTree body = .ok text := by
  unfold checkAffineCode at hc
  rw [hp] at hc
  split at hc
  · simp at hc
  · cases h : checkTree body with
    | error reason => simp [h] at hc
    | ok text' => simpa [h] using hc

/-- Every node of it passed the main loop. -/
theorem checkNode_of_accepted (hc : checkTree body = .ok text) :
    ∀ n ∈ (root body).walk, checkNode (root body).walk (deleteTargets body) n = none := by
  unfold checkTree at hc
  simp only [Python.bind_eq_ok, refuse_eq_ok] at hc
  obtain ⟨-, -, -, -, -, -, -, hmain, -⟩ := hc
  exact List.findSome?_eq_none_iff.1 hmain

/-- **What the check says of `os`.** -/
theorem permitted_of_accepted (hc : checkTree body = .ok text)
    (ha : (Ast.module body).Within (.attributeRef value attr ctx)) (hv : value.isName "os") :
    attr ∈ permitted := by
  obtain ⟨path, hpath⟩ := (Node.exists_mem_walk (n := root body)).2 ha
  have hnode := checkNode_of_accepted hc _ hpath
  have hattr : checkAttribute (.attributeRef value attr ctx) = none := by
    simp only [checkNode, Option.or_eq_none_iff] at hnode
    exact hnode.2.2.2.1
  by_contra hnot
  simp only [checkAttribute] at hattr
  split at hattr
  · cases hattr
  · simp [hv, hnot] at hattr

/-! ## What a node does with its children -/

theorem Ast.Within.trans {t m : Ast} (htm : t.Within m) (hma : m.Within a) : t.Within a := by
  induction htm with
  | self => exact hma
  | child hc _ ih => exact .child hc (ih hma)

theorem within_of_children (hp : (Ast.module body).Within p) (he : e ∈ p.children) :
    (Ast.module body).Within e := hp.trans (.child he (.self e))

/-- What an attribute is asked of is the value of an attribute expression. -/
theorem within_of_reads (h : (value, attr) ∈ a.reads) :
    ∃ ctx, a.Within (.attributeRef value attr ctx) := by
  unfold Ast.reads at h
  split at h
  · cases List.mem_singleton.1 h
    exact ⟨_, .self _⟩
  · cases List.mem_singleton.1 h
    exact ⟨_, .child List.mem_cons_self (.self _)⟩
  · cases h

theorem Ast.mem_children_of_mem_besides (h : e ∈ a.besides) : e ∈ a.children := by
  cases a with
  | call func args keywords => exact List.mem_cons_of_mem _ h
  | _ => exact h

/-- What a node hands on are children of it, and it is not an attribute. -/
theorem mem_besides_of_hands (h : e ∈ a.hands) : a.isAttribute = false ∧ e ∈ a.besides := by
  cases a with
  | annAssign target annotation value =>
    refine ⟨rfl, ?_⟩
    simp only [Ast.hands] at h
    split at h
    · simp [Ast.besides, Ast.children, Option.mem_toList.1 h]
    · cases h
  | loop target iter body orelse =>
    refine ⟨rfl, ?_⟩
    simp only [Ast.hands] at h
    split at h
    · simp [Ast.besides, Ast.children, List.mem_singleton.1 h]
    · cases h
  | binOp left op right =>
    rcases List.mem_cons.1 h with rfl | h
    · simp [Ast.besides, Ast.children, Ast.isAttribute]
    · simp [List.mem_singleton.1 h, Ast.besides, Ast.children, Ast.isAttribute]
  | augAssign target op value =>
    rcases List.mem_cons.1 h with rfl | h
    · simp [Ast.besides, Ast.children, Ast.isAttribute]
    · simp [List.mem_singleton.1 h, Ast.besides, Ast.children, Ast.isAttribute]
  | _ => simp_all [Ast.hands, Ast.besides, Ast.children, Ast.isAttribute]

theorem mem_children_of_calls {c : Call} (h : c ∈ a.calls) :
    a.isAttribute = false ∧ c.func ∈ a.children := by
  cases a with
  | call func args keywords =>
    obtain rfl := List.mem_singleton.1 h
    exact ⟨rfl, List.mem_cons_self⟩
  | functionDef id args body decoratorList rest =>
    obtain ⟨d, hd, rfl⟩ := List.mem_map.1 h
    exact ⟨rfl, by simp [Ast.children, hd]⟩
  | _ => cases h

/-- The thing that a binding has from the text alone. -/
def Source.thing : Source → Option Thing
  | .module name => if name = "os" then some .os else none
  | .builder k => some (.builder k)
  | _ => none

theorem Source.eq_builder {src : Source} {k : Builder} (h : .builder k ∈ src.thing) :
    src = .builder k := by
  cases src with
  | module name =>
    rw [Source.thing] at h
    split at h <;> cases h
  | builder k' =>
    cases h
    rfl
  | _ => cases h

/-- The expression that a binding has its value from. -/
def Source.expr : Source → Option Ast
  | .value e | .holder e | .element e => some e
  | _ => none

/-- **Where a binding has its value from.** -/
theorem Source.Yields.cases {src : Source} (h : src.Yields s v) :
    (∃ t ∈ src.thing, v = ⟨t, false⟩) ∨
    (∃ e ∈ src.expr, ∃ u, Evals s e u ∧ v.thing = u.thing) ∨ v.thing ∈ s.outside := by
  cases h with
  | module | builder => exact .inl ⟨_, rfl, rfl⟩
  | value h => exact .inr (.inl ⟨_, rfl, _, h, rfl⟩)
  | holder h => exact .inr (.inl ⟨_, rfl, _, h, rfl⟩)
  | element h hw => exact .inr (.inl ⟨_, rfl, _, h, Value.thing_of_mem_part hw⟩)
  | next h | unseen h => exact .inr (.inr h)

/-- **What a node binds**: by an import, or from an expression below it or
an object, and no thing of itself. -/
theorem bindings_cases {src : Source} (h : (id, src) ∈ a.bindings) :
    (∃ names, a = .imports names ∧ ∃ al ∈ names, Ast.importOf al = (id, src)) ∨
    (∃ path names, a = .importFrom path names ∧ ∃ al ∈ names, al.bound = id ∧
      al.source path = src) ∨
    src.thing = none ∧ ∀ e ∈ src.expr, a.isAttribute = false ∧ e ∈ a.besides := by
  rcases List.mem_append.1 h with h | h
  · cases a with
    | imports names =>
      obtain ⟨al, hal, heq⟩ := List.mem_map.1 h
      exact .inl ⟨names, rfl, al, hal, heq⟩
    | importFrom path names =>
      obtain ⟨al, hal, heq⟩ := List.mem_map.1 h
      obtain ⟨hid, hsrc⟩ := Prod.mk.inj heq
      exact .inr (.inl ⟨path, names, rfl, al, hal, hid, hsrc⟩)
    | assign targets value =>
      obtain ⟨x, -, hx⟩ := List.mem_map.1 h
      cases hx
      exact .inr (.inr ⟨rfl, by rintro e ⟨⟩; simp [Ast.besides, Ast.children, Ast.isAttribute]⟩)
    | annAssign target annotation value =>
      obtain ⟨x, -, hx⟩ := List.mem_flatMap.1 h
      obtain ⟨y, hy, hxy⟩ := List.mem_map.1 hx
      cases hxy
      refine .inr (.inr ⟨rfl, ?_⟩)
      rintro e ⟨⟩
      exact ⟨rfl, by simp [Ast.besides, Ast.children, Option.mem_toList.1 hy]⟩
    | namedExpr target value =>
      obtain ⟨x, -, hx⟩ := List.mem_map.1 h
      cases hx
      exact .inr (.inr ⟨rfl, by rintro e ⟨⟩; simp [Ast.besides, Ast.children, Ast.isAttribute]⟩)
    | functionDef name args body decoratorList rest =>
      rw [Ast.writes, List.mem_singleton] at h
      obtain ⟨-, rfl⟩ := Prod.mk.inj h
      split <;> exact .inr (.inr ⟨rfl, by rintro e ⟨⟩⟩)
    | _ =>
      obtain ⟨x, -, hx⟩ := List.mem_map.1 h
      cases hx
      exact .inr (.inr ⟨rfl, by rintro e ⟨⟩⟩)
  · refine .inr (.inr ?_)
    cases a with
    | assign targets value =>
      obtain ⟨x, -, hx⟩ := List.mem_filterMap.1 h
      obtain ⟨y, -, hxy⟩ := Option.map_eq_some_iff.1 hx
      cases hxy
      exact ⟨rfl, by rintro e ⟨⟩; simp [Ast.besides, Ast.children, Ast.isAttribute]⟩
    | loop target iter body orelse =>
      obtain ⟨x, -, hx⟩ := List.mem_map.1 h
      cases hx
      exact ⟨rfl, by rintro e ⟨⟩; simp [Ast.besides, Ast.children, Ast.isAttribute]⟩
    | annAssign target annotation value =>
      cases List.mem_singleton.1 h
      exact ⟨rfl, by rintro e ⟨⟩; simp [Ast.besides, Ast.children, Ast.isAttribute]⟩
    | _ => cases h

/-- An import binds nothing that an expression has. -/
theorem mem_besides_of_bindings {src : Source} (h : (id, src) ∈ a.bindings) (he : e ∈ src.expr) :
    a.isAttribute = false ∧ e ∈ a.besides := by
  rcases bindings_cases h with ⟨names, -, al, -, hal⟩ | ⟨path, names, -, al, -, -, rfl⟩ | ⟨-, hexpr⟩
  · unfold Ast.importOf at hal
    split at hal <;> (cases hal; cases he)
  · unfold Alias.source at he
    split_ifs at he <;> cases he
  · exact hexpr e he

/-! ## A thing that only its name holds -/

/-- **The module has the thing under one name only**, names it for its
permitted attributes and for calls of it, and binds no other name to it. -/
structure OnlyNamed (body : List Ast) (t : Thing) (n : String) : Prop where
  besides : ∀ {a e}, (Ast.module body).Within a → a.isAttribute = false → e ∈ a.besides →
    ¬e.isName n
  member : ∀ {value attr ctx}, (Ast.module body).Within (.attributeRef value attr ctx) →
    value.isName n → Value.member attr ⟨t, false⟩ = []
  source : ∀ {a id src}, (Ast.module body).Within a → (id, src) ∈ a.bindings →
    t ∈ src.thing → id = n

/-- The thing is held by its name, and has not been handed on. -/
structure HeldBy (s : State) (t : Thing) (n : String) : Prop where
  vars : ∀ {id v}, s.vars id = some v → v.thing = t → id = n ∧ v = ⟨t, false⟩
  outside : t ∉ s.outside

variable {t : Thing} {n : String}

theorem heldBy_empty : HeldBy .empty t n := by
  refine ⟨?_, Set.notMem_empty t⟩
  intro id v h
  cases h

/-- **What evaluates to the thing is its name.** -/
theorem HeldBy.evals (ht : t ≠ .gateway) (hn : OnlyNamed body t n) (h : HeldBy s t n)
    (he : (Ast.module body).Within e) (hv : Evals s e v) (hvt : v.thing = t) :
    e.isName n ∧ v = ⟨t, false⟩ := by
  have child : ∀ {p c : Ast} {w : Value}, (Ast.module body).Within p → p.isAttribute = false →
      c ∈ p.besides → ((Ast.module body).Within c → w.thing = t →
        c.isName n ∧ w = ⟨t, false⟩) → w.thing = t → False := by
    intro p c w hp hattr hmem hc hw
    have hwithin := within_of_children hp (Ast.mem_children_of_mem_besides hmem)
    exact hn.besides hp hattr hmem (hc hwithin hw).1
  induction hv with
  | @var id ctx v hvar =>
    obtain ⟨rfl, hv⟩ := h.vars hvar hvt
    exact ⟨by simp [Ast.isName], hv⟩
  | builtin => exact absurd hvt.symm ht
  | body _ ih | orelse _ ih | walrus _ ih =>
    exact (child he rfl (by simp [Ast.besides, Ast.children]) ih hvt).elim
  | operand hmem _ ih | element hmem _ ih | entry hmem _ ih =>
    exact (child he rfl (by simp [Ast.besides, Ast.children, hmem]) ih hvt).elim
  | key hmem _ ih =>
    have hmem := List.reduceOption_mem_iff.2 hmem
    exact (child he rfl (List.mem_append_left _ hmem) ih hvt).elim
  | @member value attr ctx v w _ hw ih =>
    by_cases hvos : v = ⟨.os, false⟩
    · -- What `os` gives out is a gateway, and that is another thing.
      subst hvos
      simp only [Value.member] at hw
      split at hw
      · cases hw
      · rw [List.mem_singleton.1 hw] at hvt
        exact absurd hvt.symm ht
    · have hthing := (Value.thing_of_mem_member hw hvos).symm.trans hvt
      obtain ⟨hname, rfl⟩ := ih (within_of_children he (by simp [Ast.children])) hthing
      rw [hn.member he hname] at hw
      cases hw
  | subscript _ hw ih | call _ hw ih =>
    have hthing := (Value.thing_of_mem_part hw).symm.trans hvt
    obtain ⟨-, rfl⟩ := ih (within_of_children he (by simp [Ast.children])) hthing
    -- The thing itself has no parts.
    unfold Value.part at hw
    split at hw
    · rename_i heq
      cases heq
    · rename_i heq
      cases heq
      exact absurd rfl ht
    · cases hw
  | unseen _ hout => exact absurd (hvt ▸ hout) h.outside

/-- No node has it as the value of a child. -/
theorem HeldBy.not_evals (ht : t ≠ .gateway) (hn : OnlyNamed body t n) (h : HeldBy s t n)
    (ha : (Ast.module body).Within a) (hattr : a.isAttribute = false) (he : e ∈ a.besides)
    (hv : Evals s e v) : v.thing ≠ t := by
  intro hvt
  have hwithin := within_of_children ha (Ast.mem_children_of_mem_besides he)
  exact hn.besides ha hattr he (h.evals ht hn hwithin hv hvt).1

/-- **A step of the module leaves it to its name.** -/
theorem HeldBy.step (ht : t ≠ .gateway) (hn : OnlyNamed body t n) (h : HeldBy s t n)
    (hopens : ∀ a, (Ast.module body).Within a → ¬Opens s a) (hstep : Step body s s') :
    HeldBy s' t n := by
  have hbind : ∀ {id o}, (∀ v, o = some v → v.thing = t → id = n ∧ v = ⟨t, false⟩) →
      HeldBy (s.bind id o) t n := by
    intro id o ho
    refine ⟨?_, h.outside⟩
    intro id' v hv hvt
    simp only [State.bind, Function.update_apply] at hv
    split at hv
    · rename_i hid
      rw [hid]
      exact ho v hv hvt
    · exact h.vars hv hvt
  have hhand : ∀ {t'}, t' ≠ t → HeldBy (s.hand t') t n := by
    intro t' hne
    refine ⟨h.vars, ?_⟩
    intro hin
    rcases Set.mem_insert_iff.1 hin with rfl | hin
    · exact hne rfl
    · exact h.outside hin
  cases hstep with
  | @bind a id src v ha hw hy =>
    refine hbind ?_
    rintro v' ⟨⟩ hvt
    rcases hy.cases with ⟨t', hsrc, rfl⟩ | ⟨e, he, u, hu, hvu⟩ | hout
    · obtain rfl := hvt
      exact ⟨hn.source ha hw hsrc, rfl⟩
    · obtain ⟨hattr, hmem⟩ := mem_besides_of_bindings hw he
      exact absurd (hvu.symm.trans hvt) (h.not_evals ht hn ha hattr hmem hu)
    · exact absurd (hvt ▸ hout) h.outside
  | rebind ha hw =>
    refine hbind ?_
    rintro v ⟨⟩
  | hand ha he hv =>
    obtain ⟨hattr, hmem⟩ := mem_besides_of_hands he
    exact hhand (h.not_evals ht hn ha hattr hmem hv)
  | @call a c t' ha hc hv =>
    refine hhand ?_
    intro hvt
    have hwithin := within_of_children ha (mem_children_of_calls hc).2
    cases (h.evals ht hn hwithin hv hvt).2
  | run ha ho => exact absurd ho (hopens _ ha)

/-! ## A module without an alias -/

theorem plain_of_within (h : Unaliased body) (ha : (Ast.module body).Within a) : a.plain := by
  obtain ⟨path, hpath⟩ := (Node.exists_mem_walk (n := root body)).2 ha
  exact h _ hpath

/-- The name `os` stands below attributes alone. -/
theorem not_isName_of_unaliased (h : Unaliased body) (hp : (Ast.module body).Within p)
    (hattr : p.isAttribute = false) (ho : o ∈ p.children) : ¬o.isName "os" := by
  have hplain := plain_of_within h hp
  simp only [Ast.plain, Bool.and_eq_true, Bool.or_eq_true, List.all_eq_true] at hplain
  rcases hplain.2 with htrue | hall
  · rw [hattr] at htrue
    cases htrue
  · have hno := hall o ho
    simpa using hno

theorem onlyNamed_os (hc : checkTree body = .ok text) (h : Unaliased body) :
    OnlyNamed body .os "os" where
  besides ha hattr he :=
    not_isName_of_unaliased h ha hattr (Ast.mem_children_of_mem_besides he)
  member ha hv := if_pos (permitted_of_accepted hc ha hv)
  source := by
    intro a id src ha hw hsrc
    cases src with
    | module name =>
      rcases bindings_cases hw with ⟨names, rfl, al, hal, himport⟩ |
        ⟨path, names, -, al, -, -, hal⟩ | ⟨hnone, -⟩
      · have hplain := plain_of_within h ha
        simp only [Ast.plain, Ast.importsPlain, Bool.and_eq_true, List.all_eq_true,
          decide_eq_true_eq] at hplain
        have hid := hplain.1.1.1 al hal
        rwa [himport] at hid
      · unfold Alias.source at hal
        split_ifs at hal
      · rw [hnone] at hsrc
        cases hsrc
    | _ => cases hsrc

/-- **What a module without an alias keeps**: `os` is held by its name, and
no gateway by anything. -/
structure Kept (s : State) : Prop where
  os : HeldBy s .os "os"
  vars : ∀ {id v}, s.vars id = some v → v.thing ≠ .gateway
  outside : .gateway ∉ s.outside

/-- **Its expressions evaluate to no gateway.** -/
theorem Kept.evals (hc : checkTree body = .ok text) (h : Unaliased body) (hs : Kept s)
    (he : (Ast.module body).Within e) (hv : Evals s e v) : v.thing ≠ .gateway := by
  induction hv with
  | var hvar => exact hs.vars hvar
  | builtin hid =>
    have hplain := plain_of_within h he
    simp [Ast.plain, Ast.namesGateway, hid] at hplain
  | body _ ih | orelse _ ih | walrus _ ih =>
    exact ih (he.trans (.child (by simp [Ast.children]) (.self _)))
  | operand hmem _ ih | element hmem _ ih | entry hmem _ ih =>
    exact ih (he.trans (.child (by simp [Ast.children, hmem]) (.self _)))
  | key hmem _ ih =>
    have hmem := List.reduceOption_mem_iff.2 hmem
    exact ih (he.trans (.child (List.mem_append_left _ hmem) (.self _)))
  | @member value attr ctx v w hv hw ih =>
    have hvalue := within_of_children he (p := .attributeRef value attr ctx) List.mem_cons_self
    by_cases hvos : v = ⟨.os, false⟩
    · -- The check lets no other attribute of the name through.
      subst hvos
      have hos := hs.os.evals (by decide) (onlyNamed_os hc h) hvalue hv rfl
      rw [(onlyNamed_os hc h).member he hos.1] at hw
      cases hw
    · rw [Value.thing_of_mem_member hw hvos]
      exact ih hvalue
  | subscript _ hw ih | call _ hw ih =>
    rw [Value.thing_of_mem_part hw]
    exact ih (he.trans (.child (by simp [Ast.children]) (.self _)))
  | unseen _ hout =>
    intro hg
    exact hs.outside (hg ▸ hout)

/-- **It goes through no gateway.** -/
theorem Kept.not_opens (hc : checkTree body = .ok text) (h : Unaliased body) (hs : Kept s)
    (ha : (Ast.module body).Within a) : ¬Opens s a := by
  rintro (⟨e, he, inside, hv⟩ | hopening)
  · have hmem : e ∈ a.children := by
      rcases List.mem_append.1 he with he | he
      · exact Ast.mem_children_of_mem_besides (mem_besides_of_hands he).2
      · obtain ⟨c, hcall, rfl⟩ := List.mem_map.1 he
        exact (mem_children_of_calls hcall).2
    exact hs.evals hc h (within_of_children ha hmem) hv rfl
  · have hplain := plain_of_within h ha
    simp [Ast.plain, hopening] at hplain

theorem Kept.step (hc : checkTree body = .ok text) (h : Unaliased body) (hs : Kept s)
    (hstep : Step body s s') : Kept s' := by
  have hopens : ∀ a, (Ast.module body).Within a → ¬Opens s a := fun a => hs.not_opens hc h
  have hos := hs.os.step (by decide) (onlyNamed_os hc h) hopens hstep
  have hbind : ∀ {id o}, (∀ v, o = some v → v.thing ≠ .gateway) →
      ∀ {id' v}, (s.bind id o).vars id' = some v → v.thing ≠ .gateway := by
    intro id o ho id' v hv
    simp only [State.bind, Function.update_apply] at hv
    split at hv
    · exact ho v hv
    · exact hs.vars hv
  have hhand : ∀ {t}, t ≠ .gateway → .gateway ∉ (s.hand t).outside := by
    intro t ht hin
    rcases Set.mem_insert_iff.1 hin with rfl | hin
    · exact ht rfl
    · exact hs.outside hin
  cases hstep with
  | @bind a id src v ha hw hy =>
    refine ⟨hos, hbind ?_, hs.outside⟩
    rintro v' ⟨⟩
    rcases hy.cases with ⟨t, ht, rfl⟩ | ⟨e, he, u, hu, hthing⟩ | hout
    · rintro rfl
      cases src with
      | module name =>
        rw [Source.thing] at ht
        split at ht <;> cases ht
      | _ => cases ht
    · rw [hthing]
      have hmem := Ast.mem_children_of_mem_besides (mem_besides_of_bindings hw he).2
      exact hs.evals hc h (within_of_children ha hmem) hu
    · intro hg
      exact hs.outside (hg ▸ hout)
  | rebind ha hw =>
    refine ⟨hos, hbind ?_, hs.outside⟩
    rintro v ⟨⟩
  | hand ha he hv =>
    have hmem := Ast.mem_children_of_mem_besides (mem_besides_of_hands he).2
    exact ⟨hos, hs.vars, hhand (hs.evals hc h (within_of_children ha hmem) hv)⟩
  | call ha hcall hv =>
    have hmem := (mem_children_of_calls hcall).2
    exact ⟨hos, hs.vars, hhand (hs.evals hc h (within_of_children ha hmem) hv)⟩
  | run ha ho => exact absurd ho (hopens _ ha)

theorem kept_of_reached (hc : checkTree body = .ok text) (h : Unaliased body)
    (hr : Reached body s) : Kept s := by
  induction hr with
  | refl => exact ⟨heldBy_empty, by simp [State.empty], Set.notMem_empty _⟩
  | tail _ hstep ih => exact ih.step hc h hstep

/-- **A module that makes no alias keeps to the permitted attributes.** -/
theorem sound_of_unaliased (hc : checkTree body = .ok text) (h : Unaliased body) :
    Sound body := by
  intro s hr a ha attr htakes
  have hs := kept_of_reached hc h hr
  rcases htakes with ⟨value, hread, hv⟩ | ⟨-, hout⟩ | hopens
  · obtain ⟨ctx, hwithin⟩ := within_of_reads hread
    have hattr := ha.trans hwithin
    have hvalue := within_of_children hattr List.mem_cons_self
    exact permitted_of_accepted hc hattr
      (hs.os.evals (by decide) (onlyNamed_os hc h) hvalue hv rfl).1
  · exact absurd hout hs.os.outside
  · exact absurd hopens (hs.not_opens hc h ha)

/-! ## When an accepted module keeps to them -/

/-- What a class pattern asks for is read off it. -/
theorem exists_matchesFor (h : a.matchesOther) : ∃ attr, a.matchesFor attr ∧ attr ∉ permitted := by
  cases a with
  | matchClass cls patterns kwdAttrs kwdPatterns =>
    rcases Bool.or_eq_true _ _ ▸ h with hpos | hkwd
    · exact ⟨"system", by simp_all [Ast.matchesFor], by decide⟩
    · obtain ⟨attr, hattr, hnot⟩ := List.any_eq_true.1 hkwd
      exact ⟨attr, by simp [Ast.matchesFor, hattr], by simpa using hnot⟩
  | _ => cases h

theorem matchesOther_of_matchesFor (h : a.matchesFor attr) (hnot : attr ∉ permitted) :
    a.matchesOther := by
  cases a with
  | matchClass cls patterns kwdAttrs kwdPatterns =>
    rcases Bool.or_eq_true _ _ ▸ h with hpos | hkwd
    · simp_all [Ast.matchesOther]
    · simp only [Ast.matchesOther, Bool.or_eq_true, List.any_eq_true]
      exact .inr ⟨attr, of_decide_eq_true hkwd, by simpa using hnot⟩
  | _ => cases h

theorem mem_asked : f ∈ asked body ↔ ∃ a, (Ast.module body).Within a ∧ f ∈ a.asks :=
  mem_flatMap_walk

theorem Ast.mem_asks : f ∈ a.asks ↔
    (∃ value attr, (value, attr) ∈ a.reads ∧ ¬value.isName "os" ∧ attr ∉ permitted ∧
      (f, ⟨.os, false⟩) ∈ value.draws) ∨
    (a.matchesOther ∧ f = .handed .os) ∨ f ∈ a.openedBy := by
  simp only [Ast.asks, List.mem_append, List.mem_flatMap, List.mem_filter, List.mem_map,
    Prod.exists, or_assoc]
  refine or_congr ?_ (or_congr ?_ Iff.rfl)
  · constructor
    · rintro ⟨value, attr, ⟨hread, hnot⟩, f, v, ⟨hd, hv⟩, rfl⟩
      obtain rfl := of_decide_eq_true hv
      simp only [Bool.and_eq_true, Bool.not_eq_true', decide_eq_true_eq] at hnot
      exact ⟨value, attr, hread, by simp [hnot.1], hnot.2, hd⟩
    · rintro ⟨value, attr, hread, hname, hnot, hd⟩
      exact ⟨value, attr, ⟨hread, by simp [hname, hnot]⟩, f, ⟨.os, false⟩, ⟨hd, by simp⟩, rfl⟩
  · split <;> simp_all

/-- A parser of one text. -/
private def parseOnly (code : String) (body : List Ast) (c : String) :
    Except ParseError (List Ast) :=
  if c = code then .ok body else .error (.syntaxError "invalid syntax (<unknown>, line 1)")

/-- `build_vllm_chute` is imported and called for the variable `chute`. -/
private def vllmChute : List Ast :=
  [.importFrom (some "chutes.chute.template.vllm") [⟨"build_vllm_chute", none⟩],
    .assign [.name "chute" .store] (.call (.name "build_vllm_chute" .load) []
      [.keyword (some "image") (.constant (.str "chutes/vllm:1"))])]

private def vllmCode : String :=
  "from chutes.chute.template.vllm import build_vllm_chute\n" ++
    "chute = build_vllm_chute(image=\"chutes/vllm:1\")\n"

private def plainCode : String := vllmCode ++ "import os\nos.getenv(\"A\")\n"

private def plainBody : List Ast :=
  vllmChute ++ [.imports [⟨"os", none⟩], .block [.call
    (.attributeRef (.name "os" .load) "getenv" .load) [.constant (.str "A")] []]]

private def aliasCode : String := vllmCode ++ "import os as x\nx.system(\"id\")\n"

private def aliasBody : List Ast :=
  vllmChute ++ [.imports [⟨"os", some "x"⟩], .block [.call
    (.attributeRef (.name "x" .load) "system" .load) [.constant (.str "id")] []]]

end Affine

end ChutesApi
