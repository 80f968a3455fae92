import ChutesApi.Affine.Chains
/-!
# The calls of the builders

The two functions that build a chute come from a template of `chutes`, under
any name. Every call of one of them, wherever it stands, is to keep to the
rules for its arguments, and `chute` is to be bound once, to the result of
such a call. The order of a builder's parameters is that of `chutes`, and is
left open.
-/

namespace ChutesApi

namespace Affine

open Python (startsWith)

instance (p : Builder → Prop) [DecidablePred p] : Decidable (∀ k, p k) :=
  decidable_of_iff (p .vllm ∧ p .sglang) ⟨fun h => fun | .vllm => h.1 | .sglang => h.2,
    fun h => ⟨h .vllm, h .sglang⟩⟩

instance (p : Builder → Prop) [DecidablePred p] : Decidable (∃ k, p k) :=
  decidable_of_iff (p .vllm ∨ p .sglang) ⟨fun h => h.elim (⟨.vllm, ·⟩) (⟨.sglang, ·⟩),
    fun | ⟨.vllm, h⟩ => .inl h | ⟨.sglang, h⟩ => .inr h⟩

/-! ## The names of a module -/

namespace Ast

/-- **The names that an import binds to a builder.** -/
def builderNames (k : Builder) : Ast → List String
  | .importFrom (some path) names =>
    if startsWith path "chutes.chute.template" then
      (names.filter (·.isBuilder k)).map Alias.bound
    else []
  | _ => []

/-- The names that a node binds. -/
def binds : Ast → List String
  | .importFrom _ names => names.map Alias.bound
  | .assign targets _ => targets.filterMap fun
    | .name id _ => some id
    | _ => none
  | a => a.writes.map Prod.fst

/-- The names that a node binds to something else than a builder. -/
def otherBinds : Ast → List String
  | .importFrom (some path) names =>
    if startsWith path "chutes.chute.template" then
      (names.filter fun a => !a.isBuilder .vllm && !a.isBuilder .sglang).map Alias.bound
    else names.map Alias.bound
  | a => a.binds

end Ast

/-- The names that a module binds, as often as it does. -/
def binds (body : List Ast) : List String := (root body).walk.flatMap (·.ast.binds)

/-- Those that it binds to a builder. -/
def builderNames (k : Builder) (body : List Ast) : List String :=
  (root body).walk.flatMap (·.ast.builderNames k)

/-- Those that it binds to something else. -/
def otherBinds (body : List Ast) : List String := (root body).walk.flatMap (·.ast.otherBinds)

/-! ## The calls -/

/-- `*args` among the arguments: a node of a value and a context. -/
def Ast.isStarred : Ast → Bool
  | .other [_, .other []] => true
  | _ => false

/-- **The rules for `image` and `engine_args`, for positional arguments.** An
argument is for the next parameter, and a starred one can be for any that
are left. -/
def positionalOk (funcName : String) : List String → List Ast → Bool
  | _, [] | [], _ => true
  | p :: ps, a :: as =>
    if a.isStarred then "image" ∉ p :: ps && "engine_args" ∉ p :: ps
    else checkKeyword funcName (.keyword (some p) a) = none && positionalOk funcName ps as

/-- **The same for keyword arguments.** -/
def keywordsOk (funcName : String) (keywords : List Ast) : Bool :=
  keywords.all fun kw => checkKeyword funcName kw = none

/-- A call of the builder satisfies the rules, with the builder's
parameters in their order. -/
def Call.ok (params : Builder → List String) (k : Builder) (c : Call) : Bool :=
  keywordsOk k.name c.keywords && positionalOk k.name (params k) c.args

/-! ## What is asked of a module -/

/-- **Along every run, every call of a builder satisfies the rules.** -/
def CallsOk (params : Builder → List String) (body : List Ast) : Prop :=
  ∀ s, Reached body s → ∀ k a, (Ast.module body).Within a → ∀ c ∈ a.calls,
    Evals s c.func ⟨.builder k, false⟩ → c.ok params k

/-- The names whose calls are assigned to `chute` at the top of the module,
with the call. -/
def chuteCalls (body : List Ast) : List (String × Call) :=
  body.flatMap fun
    | .assign targets (.call (.name id ctx) args keywords) =>
      if targets.any (·.isName "chute") then [(id, ⟨.name id ctx, args, keywords⟩)] else []
    | _ => []

/-- **`chute` is bound once, at the top of the module, to a call of a builder
that satisfies the rules.** The function is named, and no binding of its name
is one to something else. -/
def ChuteBound (params : Builder → List String) (body : List Ast) : Prop :=
  (binds body).count "chute" = 1 ∧ ∃ call ∈ chuteCalls body,
    call.1 ∉ otherBinds body ∧ (∃ k, call.1 ∈ builderNames k body) ∧
      ∀ k, call.1 ∈ builderNames k body → call.2.ok params k

/-- **The module builds its chute as the check wants it built.** -/
def WellBuilt (params : Builder → List String) (body : List Ast) : Prop :=
  CallsOk params body ∧ ChuteBound params body

/-- **An expression that the text lets be the builder**: a chain leads to a
fact that it has it from. -/
def MayBe (body : List Ast) (k : Builder) (e : Ast) : Prop :=
  ∃ f, Chain body f ∧ (f, ⟨.builder k, false⟩) ∈ e.draws

section

variable {params : Builder → List String} {k : Builder} {body : List Ast}
variable {a e : Ast} {id : String}

/-- **What can be called as a builder, against the text.** -/
theorem exists_evals_iff :
    (∃ s, Reached body s ∧ Evals s e ⟨.builder k, false⟩) ↔ MayBe body k e := by
  simp only [MayBe, evals_iff, ← exists_reached_iff]
  constructor
  · rintro ⟨s, hr, f, hf, hd⟩
    exact ⟨f, ⟨s, hr, hf⟩, hd⟩
  · rintro ⟨f, ⟨s, hr, hf⟩, hd⟩
    exact ⟨s, hr, f, hf, hd⟩

theorem callsOk_iff : CallsOk params body ↔ ∀ k a, (Ast.module body).Within a →
    ∀ c ∈ a.calls, MayBe body k c.func → c.ok params k := by
  simp only [← exists_evals_iff]
  constructor
  · rintro h k a ha c hc ⟨s, hr, hv⟩
    exact h s hr k a ha c hc hv
  · intro h s hr k a ha c hc hv
    exact h k a ha c hc ⟨s, hr, hv⟩

/-- An import of a builder binds its name to it. -/
theorem mem_bindings_of_builderNames (h : id ∈ a.builderNames k) :
    (id, .builder k) ∈ a.bindings := by
  refine List.mem_append_left _ ?_
  unfold Ast.builderNames at h
  split at h
  · rename_i path names
    split at h
    · rename_i hpath
      obtain ⟨al, hal, rfl⟩ := List.mem_map.1 h
      obtain ⟨hal, hname⟩ := List.mem_filter.1 hal
      refine List.mem_map.2 ⟨al, hal, ?_⟩
      simp only [Alias.isBuilder, decide_eq_true_eq] at hname
      cases k <;> simp [Alias.source, Alias.isBuilder, hpath, hname, Builder.name]
    · cases h
  · cases h

/-- And no other alias is one of a builder. -/
theorem mem_builderNames_of_source {path : Option String} {names : List Alias} {al : Alias}
    (hal : al ∈ names) (h : al.source path = .builder k) :
    al.bound ∈ (Ast.importFrom path names).builderNames k := by
  have hpath : startsWith (path.getD "") "chutes.chute.template" ∧ al.isBuilder k := by
    unfold Alias.source at h
    split_ifs at h with hpath hv hs
    · cases h
      exact ⟨hpath, hv⟩
    · cases h
      exact ⟨hpath, hs⟩
  cases path with
  | none => cases hpath.1
  | some path =>
    have hstart : startsWith path "chutes.chute.template" := hpath.1
    rw [Ast.builderNames, if_pos hstart]
    exact List.mem_map.2 ⟨al, List.mem_filter.2 ⟨hal, hpath.2⟩, rfl⟩

/-- A name that is imported can be the builder. -/
theorem mayBe_of_mem_builderNames {ctx : Ctx} (h : id ∈ builderNames k body) :
    MayBe body k (.name id ctx) := by
  obtain ⟨a, ha, hid⟩ := mem_flatMap_walk.1 h
  refine exists_evals_iff.1 ⟨State.empty.bind id (some ⟨.builder k, false⟩), ?_, ?_⟩
  · exact .tail .refl (.bind ha (mem_bindings_of_builderNames hid) .builder)
  · exact .var (by simp [State.bind])

end

end Affine

end ChutesApi
