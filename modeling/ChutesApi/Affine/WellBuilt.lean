import ChutesApi.Affine.Builder
import ChutesApi.Affine.Soundness
/-!
# The check of affine code against the builders

The check looks for a call of a builder by the builder's own name, in an
assignment to `chute` at the top of the module, and then at the keyword
arguments of that call. It lets through every other call, positional
arguments, and every other way to bind `chute` or the builder's name. So an
accepted module builds its chute as it should exactly when none of these is
in it. A module that imports the builders under their own names, names them
for that one call only and binds `chute` nowhere else is of this kind.
-/

namespace ChutesApi

namespace Affine

/-! ## What the check has looked at -/

/-- A statement whose call the check looks at. -/
def Ast.isLookedAt (k : Builder) : Ast → Bool
  | .assign targets (.call func _ _) =>
    func.isName k.name && targets.any (·.isName "chute")
  | _ => false

/-- What a statement assigns is the call of. -/
def Ast.assignedCalls : Ast → List Call
  | .assign _ value => value.calls
  | _ => []

/-- The parts of a statement that hold all other calls. -/
def Ast.otherParts (k : Builder) : Ast → List Ast
  | .assign targets value =>
    if (Ast.assign targets value).isLookedAt k then targets ++ value.children
    else [.assign targets value]
  | a => [a]

/-- **The calls by a builder's name that the check looks at.** -/
def lookedAt (k : Builder) (body : List Ast) : List Call :=
  (body.filter (·.isLookedAt k)).flatMap Ast.assignedCalls

/-- **All other calls.** -/
def otherCalls (k : Builder) (body : List Ast) : List Call :=
  (body.flatMap (·.otherParts k)).flatMap fun a =>
    (Node.mk [] a).walk.flatMap (·.ast.calls)

/-- **The check has missed nothing**: no other binding of `chute`, no other
binding of the name that is called for it, no positional argument that
breaks the rules in the call it looks at, and no other call of a builder
that breaks them. -/
def NothingMissed (params : Builder → List String) (body : List Ast) : Prop :=
  (binds body).count "chute" = 1 ∧ (∀ call ∈ chuteCalls body, call.1 ∉ otherBinds body) ∧
    (∀ k, ∀ c ∈ lookedAt k body, MayBe body k c.func →
      positionalOk k.name (params k) c.args) ∧
    ∀ k, ∀ c ∈ otherCalls k body, MayBe body k c.func → c.ok params k

/-- A node imports a builder under its own name, binds this name to nothing
else, and has it only as a function that it calls. -/
def Ast.namesPlainly (k : Builder) (a : Ast) : Bool :=
  (a.builderNames k).all (· = k.name) && k.name ∉ a.otherBinds &&
    a.besides.all fun e => !e.isName k.name

/-- **The module names the builders for the call that is looked at**, and
makes no alias of `os`. -/
def NamedForCall (body : List Ast) : Prop :=
  (binds body).count "chute" = 1 ∧ Unaliased body ∧
    (∀ k, ∀ n ∈ (root body).walk, n.ast.namesPlainly k) ∧
    (∀ k, ∀ c ∈ lookedAt k body, c.args.isEmpty) ∧
    ∀ k, ∀ c ∈ otherCalls k body, !c.func.isName k.name

instance (body : List Ast) : Decidable (NamedForCall body) :=
  inferInstanceAs (Decidable (_ ∧ _ ∧ _ ∧ _ ∧ _))

variable {parse : String → Except ParseError (List Ast)} {code text : String}
variable {body : List Ast} {a stmt value : Ast} {c : Call} {k : Builder} {id f : String}
variable {params : Builder → List String} {imported : List String} {s : State}

theorem name_mem (k : Builder) : k.name ∈ ["build_sglang_chute", "build_vllm_chute"] := by
  cases k <;> decide

theorem exists_name (h : f ∈ ["build_sglang_chute", "build_vllm_chute"]) :
    ∃ k : Builder, f = k.name := by
  rcases List.mem_cons.1 h with rfl | h
  · exact ⟨.sglang, rfl⟩
  · exact ⟨.vllm, List.mem_singleton.1 h⟩

theorem exists_of_isName (h : a.isName id) : ∃ ctx, a = .name id ctx := by
  cases a with
  | name id' ctx => exact ⟨ctx, by simpa [Ast.isName] using h⟩
  | _ => cases h

/-- **The statements that the check looks at**: `chute` is assigned a call
by a builder's name. -/
theorem isLookedAt_iff : stmt.isLookedAt k ↔ ∃ targets ctx args keywords,
    stmt = .assign targets (.call (.name k.name ctx) args keywords) ∧
      targets.any (·.isName "chute") := by
  constructor
  · intro h
    unfold Ast.isLookedAt at h
    split at h
    · rename_i targets func args keywords
      rw [Bool.and_eq_true] at h
      obtain ⟨ctx, rfl⟩ := exists_of_isName h.1
      exact ⟨targets, ctx, args, keywords, rfl, h.2⟩
    · cases h
  · rintro ⟨targets, ctx, args, keywords, rfl, h⟩
    simpa [Ast.isLookedAt, Ast.isName] using h

/-- **What the check asks of a builder's call.** -/
theorem checkTarget_builder {v : String} {ctx ctx' : Ctx} {args keywords : List Ast}
    {chute r : Option String}
    (h : checkTarget imported (.call (.name k.name ctx') args keywords) chute (.name v ctx) =
      .ok r) :
    v = "chute" ∧ k.name ∈ imported ∧ keywordsOk k.name keywords ∧ r = some k.name := by
  simp only [checkTarget, if_neg (not_not.2 (name_mem k))] at h
  split at h
  · cases h
  rename_i himp
  split at h
  · cases h
  rename_i hv
  split at h
  · cases h
  split at h
  · cases h
  rename_i hkw
  refine ⟨not_not.1 hv, not_not.1 himp, ?_, by simpa using h.symm⟩
  rw [List.findSome?_eq_none_iff] at hkw
  simpa [keywordsOk] using hkw

/-- The check notes the name of a builder that is called for `chute`. -/
theorem checkTarget_some {chute : Option String} {target : Ast}
    (h : checkTarget imported value chute target = .ok (some f)) : chute = some f ∨
      ∃ k, f = Builder.name k ∧ f ∈ imported ∧ target.isName "chute" ∧
        ∃ ctx args keywords, value = .call (.name k.name ctx) args keywords := by
  cases target with
  | name v ctx =>
    have hstep := h
    simp only [checkTarget] at hstep
    split at hstep
    · rename_i funcName ctx' args keywords
      by_cases hf : funcName ∈ ["build_sglang_chute", "build_vllm_chute"]
      · obtain ⟨k, rfl⟩ := exists_name hf
        obtain ⟨rfl, himp, -, hr⟩ := checkTarget_builder h
        obtain rfl := Option.some.inj hr
        exact .inr ⟨k, rfl, himp, by simp [Ast.isName], ctx', args, keywords, rfl⟩
      · rw [if_pos hf] at hstep
        exact .inl (by simpa using hstep)
    · exact .inl (by simpa using hstep)
  | _ => exact .inl (by simpa [checkTarget] using h)

/-- **A call that the check has looked at keeps to the rules for keyword
arguments.** -/
theorem keywordsOk_of_lookedAt {chute r : Option String}
    (h : body.foldlM (checkStatement imported) chute = .ok r) (hc : c ∈ lookedAt k body) :
    keywordsOk k.name c.keywords := by
  obtain ⟨stmt, hs, hcall⟩ := List.mem_flatMap.1 hc
  obtain ⟨hs, hlooked⟩ := List.mem_filter.1 hs
  obtain ⟨targets, ctx', args, keywords, rfl, hchute⟩ := isLookedAt_iff.1 hlooked
  obtain ⟨target, ht, hname⟩ := List.any_eq_true.1 hchute
  obtain ⟨ctx, rfl⟩ := exists_of_isName hname
  obtain ⟨chute, r, hstep⟩ := Python.exists_of_foldlM_eq_ok h hs
  obtain ⟨chute, r, htarget⟩ := Python.exists_of_foldlM_eq_ok hstep ht
  obtain ⟨-, -, hkw, -⟩ := checkTarget_builder htarget
  rw [Ast.assignedCalls, Ast.calls, List.mem_singleton] at hcall
  rw [hcall]
  exact hkw

/-- **The check has found a call for `chute`.** -/
theorem exists_lookedAt (h : body.foldlM (checkStatement imported) none = .ok (some f)) :
    ∃ stmt ∈ body, ∃ k, stmt.isLookedAt k ∧ f = Builder.name k ∧ f ∈ imported := by
  refine Python.foldlM_rule (P := fun chute => ∀ f, chute = some f → ∃ stmt ∈ body, ∃ k,
    stmt.isLookedAt k ∧ f = Builder.name k ∧ f ∈ imported) (by simp) ?_ h f rfl
  intro chute stmt r hs hchute hstep
  unfold checkStatement at hstep
  split at hstep
  · rename_i targets value
    refine Python.foldlM_rule (P := fun chute => ∀ f, chute = some f → ∃ stmt ∈ body, ∃ k,
      stmt.isLookedAt k ∧ f = Builder.name k ∧ f ∈ imported) hchute ?_ hstep
    intro chute target r ht hchute htarget f hr
    rw [hr] at htarget
    rcases checkTarget_some htarget with hsome | ⟨k, rfl, himp, hname, ctx, args, kws, rfl⟩
    · exact hchute f hsome
    · have hchute : targets.any (·.isName "chute") := List.any_eq_true.2 ⟨target, ht, hname⟩
      exact ⟨_, hs, k, isLookedAt_iff.2 ⟨targets, ctx, args, kws, rfl, hchute⟩, rfl, himp⟩
  · intro f hr
    exact hchute f (by simpa [hr] using hstep)

theorem exists_of_importNames {allowed : List String} {reason : String} {names : List Alias}
    {ids : List String} (h : importNames allowed reason names = .ok ids) (hid : id ∈ ids) :
    ∃ a ∈ names, a.name ∈ allowed ∧ a.bound = id := by
  obtain ⟨a, ha, hbound⟩ := Python.exists_of_mapM_eq_ok h hid
  split at hbound
  · rename_i hname
    exact ⟨a, ha, hname, by simpa [Alias.bound] using hbound⟩
  · cases hbound

/-- **A name that the check takes as imported is bound by an import.** -/
theorem mem_of_checkImport {ids : List String} (h : checkImport a = .ok ids) (hid : id ∈ ids) :
    (∃ k, id ∈ a.builderNames k) ∨ id ∈ a.otherBinds := by
  unfold checkImport at h
  split at h
  · split at h
    · cases h
    · rw [← Except.ok.inj h] at hid
      cases hid
  · split at h
    · cases h
    · rw [← Except.ok.inj h] at hid
      cases hid
  · cases h
  · rename_i path names
    split at h
    · cases h
    split at h
    · rename_i hpath
      obtain ⟨a, ha, -, rfl⟩ := exists_of_importNames h hid
      have htemplate : Python.startsWith "chutes.chute" "chutes.chute.template" = false := by
        decide
      right
      rw [hpath, Ast.otherBinds, if_neg (by simp [htemplate])]
      exact List.mem_map_of_mem ha
    split at h
    · rename_i htemplate
      obtain ⟨a, ha, hname, rfl⟩ := exists_of_importNames h hid
      obtain ⟨k, hk⟩ := exists_name (f := a.name) (by simpa [or_comm] using hname)
      refine .inl ⟨k, ?_⟩
      rw [Ast.builderNames, if_pos htemplate]
      exact List.mem_map_of_mem (List.mem_filter.2 ⟨ha, by simp [Alias.isBuilder, hk]⟩)
    · cases h
  · rw [← Except.ok.inj h] at hid
    cases hid

/-- **What an accepted module has passed.** -/
theorem accepted (hc : checkTree body = .ok text) : ∃ imported f,
    body.foldlM (checkStatement imported) none = .ok (some f) ∧
    ∀ id ∈ imported, (∃ k, id ∈ builderNames k body) ∨ id ∈ otherBinds body := by
  unfold checkTree at hc
  simp only [Python.bind_eq_ok] at hc
  obtain ⟨-, -, -, -, imported, himp, -, -, hbody⟩ := hc
  simp only [checkBody, Python.bind_eq_ok] at hbody
  obtain ⟨chute, hfold, hsome⟩ := hbody
  cases chute with
  | none => cases hsome
  | some f =>
    refine ⟨imported.flatten, f, hfold, ?_⟩
    intro id hid
    obtain ⟨ids, hids, hid⟩ := List.mem_flatten.1 hid
    obtain ⟨n, hn, himport⟩ := Python.exists_of_mapM_eq_ok himp hids
    rcases mem_of_checkImport himport hid with ⟨k, hk⟩ | hother
    · exact .inl ⟨k, List.mem_flatMap.2 ⟨n, hn, hk⟩⟩
    · exact .inr (List.mem_flatMap.2 ⟨n, hn, hother⟩)

/-! ## What it has missed -/

theorem otherParts_of_not (h : ¬a.isLookedAt k) : a.otherParts k = [a] := by
  cases a with
  | assign targets value => exact if_neg h
  | _ => rfl

theorem within_of_mem_otherParts {p : Ast} (h : p ∈ stmt.otherParts k) : stmt.Within p := by
  by_cases hlooked : stmt.isLookedAt k
  · obtain ⟨targets, ctx, args, keywords, rfl, -⟩ := isLookedAt_iff.1 hlooked
    rw [Ast.otherParts, if_pos hlooked, List.mem_append] at h
    rcases h with h | h
    · exact .child (List.mem_append_left _ h) (.self p)
    · exact .child (List.mem_append_right _ List.mem_cons_self) (.child h (.self p))
  · rw [otherParts_of_not hlooked, List.mem_singleton] at h
    exact h ▸ .self p

theorem mem_otherCalls : c ∈ otherCalls k body ↔
    ∃ stmt ∈ body, ∃ p ∈ stmt.otherParts k, ∃ a, p.Within a ∧ c ∈ a.calls := by
  rw [otherCalls, List.mem_flatMap]
  constructor
  · intro ⟨p, hp, hc⟩
    obtain ⟨stmt, hs, hp⟩ := List.mem_flatMap.1 hp
    exact ⟨stmt, hs, p, hp, mem_flatMap_walk.1 hc⟩
  · intro ⟨stmt, hs, p, hp, hc⟩
    exact ⟨p, List.mem_flatMap.2 ⟨stmt, hs, hp⟩, mem_flatMap_walk.2 hc⟩

/-- **A call is one that the check looks at, or another.** -/
theorem mem_calls (ha : (Ast.module body).Within a) (hc : c ∈ a.calls) (k : Builder) :
    c ∈ lookedAt k body ∨ c ∈ otherCalls k body := by
  cases ha with
  | self => cases hc
  | @child _ stmt _ hs ha =>
    have hother : ∀ p ∈ stmt.otherParts k, p.Within a → c ∈ otherCalls k body := by
      intro p hp hpa
      exact mem_otherCalls.2 ⟨stmt, hs, p, hp, a, hpa, hc⟩
    by_cases hlooked : stmt.isLookedAt k
    · obtain ⟨targets, ctx, args, keywords, rfl, -⟩ := isLookedAt_iff.1 hlooked
      rw [Ast.otherParts, if_pos hlooked] at hother
      -- The assignment is no call; its value is the one that is looked at.
      cases ha with
      | self => cases hc
      | @child _ part _ hpart ha =>
        rcases List.mem_append.1 hpart with ht | hvalue
        · exact .inr (hother part (List.mem_append_left _ ht) ha)
        · obtain rfl := List.mem_singleton.1 hvalue
          cases ha with
          | self => exact .inl (List.mem_flatMap.2 ⟨_, List.mem_filter.2 ⟨hs, hlooked⟩, hc⟩)
          | child hpart ha => exact .inr (hother _ (List.mem_append_right _ hpart) ha)
    · rw [otherParts_of_not hlooked] at hother
      exact .inr (hother stmt (List.mem_singleton_self stmt) ha)

/-- Both are calls of the module. -/
theorem exists_within (h : c ∈ lookedAt k body ∨ c ∈ otherCalls k body) :
    ∃ a, (Ast.module body).Within a ∧ c ∈ a.calls := by
  rcases h with h | h
  · obtain ⟨stmt, hs, hcall⟩ := List.mem_flatMap.1 h
    obtain ⟨hs, hlooked⟩ := List.mem_filter.1 hs
    obtain ⟨targets, ctx, args, keywords, rfl, -⟩ := isLookedAt_iff.1 hlooked
    exact ⟨_, .child hs (.child (List.mem_append_right _ List.mem_cons_self) (.self _)), hcall⟩
  · obtain ⟨stmt, hs, p, hp, a, ha, hc⟩ := mem_otherCalls.1 h
    exact ⟨a, (Ast.Within.child hs (within_of_mem_otherParts hp)).trans ha, hc⟩

/-- **A name that is bound once is bound by one node.** -/
theorem eq_of_count_flatMap {α β : Type*} [BEq β] [LawfulBEq β] {l : List α} {f : α → List β}
    {x : β} {a b : α} (h : (l.flatMap f).count x = 1) (ha : a ∈ l) (hb : b ∈ l)
    (hxa : x ∈ f a) (hxb : x ∈ f b) : a = b := by
  induction l with
  | nil => cases ha
  | cons y l ih =>
    rw [List.flatMap_cons, List.count_append] at h
    have hrest : ∀ z ∈ l, x ∈ f z → 0 < (l.flatMap f).count x := by
      intro z hz hxz
      exact List.count_pos_iff.2 (List.mem_flatMap.2 ⟨z, hz, hxz⟩)
    rcases List.mem_cons.1 ha with rfl | ha
    · rcases List.mem_cons.1 hb with rfl | hb
      · rfl
      · have hhead := List.count_pos_iff.2 hxa
        have htail := hrest b hb hxb
        omega
    · have htail := hrest a ha hxa
      rcases List.mem_cons.1 hb with rfl | hb
      · have hhead := List.count_pos_iff.2 hxb
        omega
      · have hzero : (f y).count x = 0 := by omega
        exact ih (by omega) ha hb

/-- What calls for `chute` there are stands in statements that bind it. -/
theorem mem_chuteCalls {call : String × Call} (h : call ∈ chuteCalls body) :
    ∃ targets ctx args keywords, .assign targets (.call (.name call.1 ctx) args keywords) ∈ body ∧
      targets.any (·.isName "chute") ∧ call.2 = ⟨.name call.1 ctx, args, keywords⟩ := by
  obtain ⟨stmt, hs, hcall⟩ := List.mem_flatMap.1 h
  split at hcall
  · rename_i targets id ctx args keywords
    split at hcall
    · rename_i hchute
      obtain rfl := List.mem_singleton.1 hcall
      exact ⟨targets, ctx, args, keywords, hs, hchute, rfl⟩
    · cases hcall
  · cases hcall

theorem mem_binds {targets : List Ast} (h : targets.any (·.isName "chute")) :
    "chute" ∈ (Ast.assign targets value).binds := by
  obtain ⟨target, ht, hname⟩ := List.any_eq_true.1 h
  obtain ⟨ctx, rfl⟩ := exists_of_isName hname
  exact List.mem_filterMap.2 ⟨_, ht, rfl⟩

/-- **There is at most one call for `chute`, where the name is bound once.** -/
theorem chuteCalls_unique {call call' : String × Call}
    (honce : (binds body).count "chute" = 1) (h : call ∈ chuteCalls body)
    (h' : call' ∈ chuteCalls body) : call = call' := by
  obtain ⟨targets, ctx, args, kws, hs, ht, hcall⟩ := mem_chuteCalls h
  obtain ⟨targets', ctx', args', kws', hs', ht', hcall'⟩ := mem_chuteCalls h'
  obtain ⟨p, hp⟩ := (Node.exists_mem_walk (n := root body)).2 (.child hs (.self _))
  obtain ⟨p', hp'⟩ := (Node.exists_mem_walk (n := root body)).2 (.child hs' (.self _))
  have heq := eq_of_count_flatMap honce hp hp' (mem_binds ht) (mem_binds ht')
  simp only [Node.mk.injEq, Ast.assign.injEq, Ast.call.injEq, Ast.name.injEq] at heq
  obtain ⟨-, -, ⟨hid, hctx⟩, hargs, hkws⟩ := heq
  refine Prod.ext hid ?_
  rw [hcall, hcall', hid, hctx, hargs, hkws]

/-- **A statement that the check looks at is a call for `chute`.** -/
theorem chuteCalls_of_lookedAt (hs : stmt ∈ body) (h : stmt.isLookedAt k) :
    ∃ call ∈ chuteCalls body, call.1 = k.name := by
  obtain ⟨targets, ctx, args, keywords, rfl, hchute⟩ := isLookedAt_iff.1 h
  refine ⟨(k.name, ⟨.name k.name ctx, args, keywords⟩), ?_, rfl⟩
  exact List.mem_flatMap.2 ⟨_, hs, by simp [hchute]⟩

/-- **What an accepted module calls for `chute`** goes by a builder's name, and
this name is bound. -/
theorem exists_chuteCall (hc : checkTree body = .ok text) : ∃ call ∈ chuteCalls body,
    (∃ k, call.1 = Builder.name k) ∧
      ((∃ k, call.1 ∈ builderNames k body) ∨ call.1 ∈ otherBinds body) := by
  obtain ⟨imported, f, hfold, himp⟩ := accepted hc
  obtain ⟨stmt, hs, k, hlooked, rfl, himported⟩ := exists_lookedAt hfold
  obtain ⟨call, hcall, hname⟩ := chuteCalls_of_lookedAt hs hlooked
  refine ⟨call, hcall, ⟨k, hname⟩, ?_⟩
  rw [hname]
  exact himp k.name himported

/-- What the rules for keyword arguments have been applied to. -/
theorem keywordsOk_of_accepted (hc : checkTree body = .ok text) (h : c ∈ lookedAt k body) :
    keywordsOk k.name c.keywords := by
  obtain ⟨imported, f, hfold, -⟩ := accepted hc
  exact keywordsOk_of_lookedAt hfold h

/-- **An accepted module is built well exactly when nothing was missed.** -/
theorem wellBuilt_of_tree (hc : checkTree body = .ok text) :
    WellBuilt params body ↔ NothingMissed params body := by
  obtain ⟨call, hcall, -, hbound⟩ := exists_chuteCall hc
  constructor
  · intro ⟨hcalls, honce, call', hcall', hother, _⟩
    rw [callsOk_iff] at hcalls
    refine ⟨honce, ?_, ?_, ?_⟩
    · intro call hcall
      rw [chuteCalls_unique honce hcall hcall']
      exact hother
    · intro k c hc hcarries
      obtain ⟨a, ha, hca⟩ := exists_within (.inl hc)
      have hok := hcalls k a ha c hca hcarries
      rw [Call.ok, Bool.and_eq_true] at hok
      exact hok.2
    · intro k c hc hcarries
      obtain ⟨a, ha, hca⟩ := exists_within (.inr hc)
      exact hcalls k a ha c hca hcarries
  · intro ⟨honce, hother, hpos, hmissed⟩
    have hcalls : CallsOk params body := by
      rw [callsOk_iff]
      intro k a ha c hca hcarries
      rcases mem_calls ha hca k with hlooked | hmiss
      · have hkw := keywordsOk_of_accepted hc hlooked
        simp [Call.ok, hkw, hpos k c hlooked hcarries]
      · exact hmissed k c hmiss hcarries
    refine ⟨hcalls, honce, call, hcall, hother call hcall, ?_, ?_⟩
    · exact hbound.resolve_right (hother call hcall)
    · intro k' hk'
      obtain ⟨targets, ctx, args, keywords, hmem, -, hcall2⟩ := mem_chuteCalls hcall
      have hwithin : (Ast.module body).Within (.call (.name call.1 ctx) args keywords) :=
        .child hmem (.child (List.mem_append_right _ List.mem_cons_self) (.self _))
      rw [hcall2]
      exact (callsOk_iff.1 hcalls) k' _ hwithin _ List.mem_cons_self
        (mayBe_of_mem_builderNames hk')

/-! ## A module that names them for one call -/

theorem namesPlainly_of_within (h : NamedForCall body) (ha : (Ast.module body).Within a)
    (k : Builder) : a.namesPlainly k := by
  obtain ⟨-, -, hplain, -⟩ := h
  obtain ⟨path, hpath⟩ := (Node.exists_mem_walk (n := root body)).2 ha
  exact hplain k _ hpath

/-- Such a module has a builder's name for nothing but a call of it. -/
theorem not_isName_of_besides (h : NamedForCall body) (ha : (Ast.module body).Within a)
    {e : Ast} (he : e ∈ a.besides) : ¬e.isName k.name := by
  have hplain := namesPlainly_of_within h ha k
  simp only [Ast.namesPlainly, Bool.and_eq_true, List.all_eq_true] at hplain
  have hno := hplain.2 e he
  simpa using hno

theorem onlyNamed_builder (h : NamedForCall body) : OnlyNamed body (.builder k) k.name where
  besides ha _ he := not_isName_of_besides h ha he
  member ha hv := absurd hv (not_isName_of_besides h ha List.mem_cons_self)
  source := by
    intro a id src ha hw hsrc
    rcases bindings_cases hw with ⟨names, rfl, al, -, himport⟩ |
      ⟨path, names, rfl, al, hal, rfl, rfl⟩ | ⟨hnone, -⟩
    · rw [Source.eq_builder hsrc] at himport
      unfold Ast.importOf at himport
      split at himport <;> cases himport
    · -- The module is imported from, and the alias is one of the builder.
      have hplain := namesPlainly_of_within h ha k
      simp only [Ast.namesPlainly, Bool.and_eq_true, List.all_eq_true, decide_eq_true_eq] at hplain
      exact hplain.1.1 _ (mem_builderNames_of_source hal (Source.eq_builder hsrc))
    · rw [hnone] at hsrc
      cases hsrc

theorem heldBy_of_reached (hc : checkTree body = .ok text) (h : NamedForCall body)
    (hr : Reached body s) : HeldBy s (.builder k) k.name := by
  induction hr with
  | refl => exact heldBy_empty
  | tail hr hstep ih =>
    -- The module makes no alias of `os` either, so that it goes through no gateway.
    have hkept := kept_of_reached hc h.2.1 hr
    exact ih.step (by rintro ⟨⟩) (onlyNamed_builder h) (fun a => hkept.not_opens hc h.2.1) hstep

/-- **In such a module a builder's name alone is a builder.** -/
theorem isName_of_mayBe (hc : checkTree body = .ok text) (h : NamedForCall body) {e : Ast}
    (he : (Ast.module body).Within e) (hmay : MayBe body k e) : e.isName k.name := by
  obtain ⟨s, hr, hv⟩ := exists_evals_iff.2 hmay
  have hheld := heldBy_of_reached hc h hr (k := k)
  exact (hheld.evals (by rintro ⟨⟩) (onlyNamed_builder h) he hv rfl).1

/-- **In such a module nothing is missed.** -/
theorem nothingMissed_of_namedForCall (hc : checkTree body = .ok text) (h : NamedForCall body) :
    NothingMissed params body := by
  obtain ⟨call, hcall, ⟨k, hname⟩, -⟩ := exists_chuteCall hc
  refine ⟨h.1, ?_, ?_, ?_⟩
  · intro call' hcall' hother
    rw [chuteCalls_unique h.1 hcall' hcall, hname] at hother
    obtain ⟨a, ha, hbound⟩ := mem_flatMap_walk.1 hother
    have hplain := namesPlainly_of_within h ha k
    simp [Ast.namesPlainly, hbound] at hplain
  · intro k c hc _
    have hargs := h.2.2.2.1 k c hc
    rw [List.isEmpty_iff.1 hargs]
    cases params k <;> rfl
  · intro k c hcall hmay
    obtain ⟨a, ha, hca⟩ := exists_within (.inr hcall)
    have hfunc := within_of_children ha (mem_children_of_calls hca).2
    have hno := h.2.2.2.2 k c hcall
    simp [isName_of_mayBe hc h hfunc hmay] at hno

/-- The parameters of both builders, as far as `engine_args`. -/
private def parameters (_ : Builder) : List String :=
  ["username", "model_name", "node_selector", "image", "tagline", "readme", "concurrency",
    "engine_args"]

/-- A parser of one text. -/
private def parserOf (code : String) (body : List Ast) (c : String) :
    Except ParseError (List Ast) :=
  if c = code then .ok body else .error (.syntaxError "invalid syntax (<unknown>, line 1)")

private def importVllm (asname : Option String) : Ast :=
  .importFrom (some "chutes.chute.template.vllm") [⟨"build_vllm_chute", asname⟩]

/-- A call with one argument, `image`. -/
private def callFor (func image : String) : Ast :=
  .call (.name func .load) [] [.keyword (some "image") (.constant (.str image))]

private def oneCall : List Ast :=
  [importVllm none, .assign [.name "chute" .store] (callFor "build_vllm_chute" "chutes/vllm:1")]

private def oneCode : String :=
  "from chutes.chute.template.vllm import build_vllm_chute\n" ++
    "chute = build_vllm_chute(image=\"chutes/vllm:1\")\n"

private def secondCode : String :=
  oneCode ++ "from chutes.chute.template.vllm import build_vllm_chute as b\n" ++
    "b(image=\"evil/x:1\")\n"

private def secondCall : List Ast :=
  oneCall ++ [importVllm (some "b"), .block [callFor "b" "evil/x:1"]]

/-- `if 1: chute = 2` after the call. -/
example : (binds (oneCall ++ [.block [.constant .other, .assign [.name "chute" .store]
    (.constant .other)]])).count "chute" = 2 := by decide +kernel

end Affine

end ChutesApi
