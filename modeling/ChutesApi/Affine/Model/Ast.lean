import Mathlib.Data.List.ReduceOption
/-!
# The syntax trees of affine code

The trees of Python's `ast`, statements and expressions in one type. A node
has a constructor of its own where `check_affine_code` looks at its class or
at one of its fields, or where it passes a value on or binds a name; the
other classes are told apart only by what becomes of their children's
values. Children stand in the order of the class's fields, contexts and
operators included, so that nodes are counted and met as `ast.walk` does.
-/

namespace ChutesApi

namespace Affine

/-- The context of a name, an attribute or a subscript. -/
inductive Ctx
  | load
  | store
  | del
  deriving DecidableEq, Repr

/-- The value of a literal; `str` is the one the check looks at. -/
inductive Const
  | str (value : String)
  | other
  deriving DecidableEq, Repr

inductive Operator
  | add
  | mod
  | other
  deriving DecidableEq, Repr

/-- An `alias` of an import. -/
structure Alias where
  name : String
  asname : Option String
  deriving DecidableEq, Repr

/-- The classes that are refused by their name. -/
inductive Forbidden
  | asyncFunctionDef
  | generatorExp
  | listComp
  | setComp
  | dictComp
  | yield
  | yieldFrom
  | raise
  | try
  | exceptHandler
  | with
  | assert
  | global
  | nonlocal
  deriving DecidableEq, Repr

/-- `node.__class__.__name__`. -/
def Forbidden.name : Forbidden → String
  | .asyncFunctionDef => "AsyncFunctionDef"
  | .generatorExp => "GeneratorExp"
  | .listComp => "ListComp"
  | .setComp => "SetComp"
  | .dictComp => "DictComp"
  | .yield => "Yield"
  | .yieldFrom => "YieldFrom"
  | .raise => "Raise"
  | .try => "Try"
  | .exceptHandler => "ExceptHandler"
  | .with => "With"
  | .assert => "Assert"
  | .global => "Global"
  | .nonlocal => "Nonlocal"

/-- **A node of a syntax tree.** -/
inductive Ast
  | module (body : List Ast)
  | name (id : String) (ctx : Ctx)
  | constant (value : Const)
  | attributeRef (value : Ast) (attr : String) (ctx : Ctx)
  | subscript (value slice : Ast) (ctx : Ctx)
  | call (func : Ast) (args keywords : List Ast)
  | keyword (arg : Option String) (value : Ast)
  | binOp (left : Ast) (op : Operator) (right : Ast)
  | boolOp (values : List Ast)
  | ifExp (test body orelse : Ast)
  | namedExpr (target value : Ast)
  /-- The key of `**mapping` is `None`. -/
  | dict (keys : List (Option Ast)) (values : List Ast)
  /-- `List`, `Tuple` and `Set`, the last without a context. -/
  | display (elts ctx : List Ast)
  | assign (targets : List Ast) (value : Ast)
  | augAssign (target : Ast) (op : Operator) (value : Ast)
  | annAssign (target annotation : Ast) (value : Option Ast)
  /-- `For`. -/
  | loop (target iter : Ast) (body orelse : List Ast)
  | delete (targets : List Ast)
  /-- `Import`. -/
  | imports (names : List Alias)
  | importFrom (module : Option String) (names : List Alias)
  | importAlias (names : Alias)
  /-- The last field holds the return annotation and the type parameters. -/
  | functionDef (name : String) (args : Ast) (body decoratorList rest : List Ast)
  | matchClass (cls : Ast) (patterns : List Ast) (kwdAttrs : List String)
      (kwdPatterns : List Ast)
  /-- A node that names what it binds: `arg`, `MatchAs`, `MatchStar`,
  `MatchMapping` and the type parameters. -/
  | binder (names : List String) (children : List Ast)
  | joinedStr (children : List Ast)
  | lambda (children : List Ast)
  | classDef (children : List Ast)
  | forbidden (cls : Forbidden) (children : List Ast)
  /-- A node that drops its children's values: `Expr`, `If`, `While`,
  `Pass`, `Break` and `Continue`. -/
  | block (children : List Ast)
  /-- A node that hands its children's values on: `Return`, `Compare`,
  `UnaryOp`, `Await`, `Starred`, `Match` and so on. A context or an
  operator is one without children. -/
  | other (children : List Ast)
  deriving Repr

namespace Ast

/-- `ast.iter_child_nodes(node)`. -/
def children : Ast → List Ast
  | .name .. => [.other []]
  | .constant _ | .importAlias _ => []
  | .attributeRef value .. => [value, .other []]
  | .subscript value slice _ => [value, slice, .other []]
  | .call func args keywords => func :: args ++ keywords
  | .keyword _ value => [value]
  | .binOp left _ right => [left, .other [], right]
  | .boolOp values => .other [] :: values
  | .ifExp test body orelse => [test, body, orelse]
  | .namedExpr target value => [target, value]
  | .dict keys values => keys.reduceOption ++ values
  | .display elts ctx => elts ++ ctx
  | .assign targets value => targets ++ [value]
  | .augAssign target _ value => [target, .other [], value]
  | .annAssign target annotation value => target :: annotation :: value.toList
  | .loop target iter body orelse => target :: iter :: body ++ orelse
  | .imports names | .importFrom _ names => names.map .importAlias
  | .functionDef _ args body decoratorList rest => args :: body ++ decoratorList ++ rest
  | .matchClass cls patterns _ kwdPatterns => cls :: patterns ++ kwdPatterns
  | .module children | .delete children | .binder _ children | .joinedStr children
  | .lambda children | .classDef children | .forbidden _ children | .block children
  | .other children => children

mutual

/-- The number of nodes. -/
def size : Ast → ℕ
  | .name .. => 2
  | .constant _ | .importAlias _ => 1
  | .attributeRef value .. => 2 + size value
  | .subscript value slice _ => 2 + size value + size slice
  | .call func args keywords => 1 + size func + sizes args + sizes keywords
  | .keyword _ value => 1 + size value
  | .binOp left _ right => 2 + size left + size right
  | .boolOp values => 2 + sizes values
  | .ifExp test body orelse => 1 + size test + size body + size orelse
  | .namedExpr target value => 1 + size target + size value
  | .dict keys values => 1 + sizeKeys keys + sizes values
  | .display elts ctx => 1 + sizes elts + sizes ctx
  | .assign targets value => 1 + sizes targets + size value
  | .augAssign target _ value => 2 + size target + size value
  | .annAssign target annotation value => 1 + size target + size annotation + sizeOption value
  | .loop target iter body orelse => 1 + size target + size iter + sizes body + sizes orelse
  | .imports names | .importFrom _ names => 1 + names.length
  | .functionDef _ args body decoratorList rest =>
    1 + size args + sizes body + sizes decoratorList + sizes rest
  | .matchClass cls patterns _ kwdPatterns => 1 + size cls + sizes patterns + sizes kwdPatterns
  | .module children | .delete children | .binder _ children | .joinedStr children
  | .lambda children | .classDef children | .forbidden _ children | .block children
  | .other children => 1 + sizes children

def sizes : List Ast → ℕ
  | [] => 0
  | a :: as => size a + sizes as

def sizeOption : Option Ast → ℕ
  | none => 0
  | some a => size a

def sizeKeys : List (Option Ast) → ℕ
  | [] => 0
  | a :: as => sizeOption a + sizeKeys as

end

/-- **`Within t a`**: `a` is the node `t` or one below it. -/
inductive Within : Ast → Ast → Prop
  | self (a : Ast) : Within a a
  | child {t c a : Ast} : c ∈ t.children → Within c a → Within t a

end Ast

/-- A node of a tree with the way to it, which is its identity. -/
structure Node where
  path : List ℕ
  ast : Ast
  deriving Repr

namespace Node

def children (n : Node) : List Node :=
  n.ast.children.mapIdx fun i a => ⟨n.path ++ [i], a⟩

/-- The nodes of a level and of those below it. -/
def levels : ℕ → List Node → List Node
  | 0, _ => []
  | fuel + 1, level => level ++ levels fuel (level.flatMap children)

/-- `ast.walk(node)`, breadth first. -/
def walk (n : Node) : List Node := levels n.ast.size [n]

end Node

/-- The root of a module. -/
def root (body : List Ast) : Node := ⟨[], .module body⟩

/-! ## What the walk meets -/

section

variable {a t c : Ast} {l : List Ast}

@[simp] theorem Ast.sizes_append (l l' : List Ast) :
    Ast.sizes (l ++ l') = Ast.sizes l + Ast.sizes l' := by
  induction l with
  | nil => simp [Ast.sizes]
  | cons a l ih => simp only [List.cons_append, Ast.sizes, ih]; omega

@[simp] theorem Ast.sizes_reduceOption (l : List (Option Ast)) :
    Ast.sizes l.reduceOption = Ast.sizeKeys l := by
  induction l with
  | nil => rfl
  | cons o l ih =>
    cases o with
    | none => simpa [Ast.sizeKeys, Ast.sizeOption] using ih
    | some a => simp [Ast.sizeKeys, Ast.sizeOption, Ast.sizes, ih]

@[simp] theorem Ast.sizes_toList (o : Option Ast) : Ast.sizes o.toList = Ast.sizeOption o := by
  cases o <;> simp [Ast.sizes, Ast.sizeOption]

@[simp] theorem Ast.sizes_aliases (l : List Alias) : Ast.sizes (l.map .importAlias) = l.length := by
  induction l with
  | nil => rfl
  | cons a l ih => simp only [List.map_cons, Ast.sizes, Ast.size, ih, List.length_cons]; omega

/-- **A node is one more than its children together.** -/
theorem Ast.size_eq (a : Ast) : a.size = 1 + Ast.sizes a.children := by
  cases a <;> simp [Ast.size, Ast.children, Ast.sizes] <;> omega

theorem Ast.size_le_sizes (h : a ∈ l) : a.size ≤ Ast.sizes l := by
  induction l with
  | nil => cases h
  | cons b l ih =>
    simp only [Ast.sizes]
    rcases List.mem_cons.1 h with rfl | h
    · omega
    · have hle := ih h
      omega

theorem Ast.size_lt_of_mem_children (h : c ∈ a.children) : c.size < a.size := by
  have hle := Ast.size_le_sizes h
  have heq := a.size_eq
  omega

theorem Node.exists_mem_children {n : Node} :
    (∃ p, ⟨p, c⟩ ∈ n.children) ↔ c ∈ n.ast.children := by
  simp only [Node.children, List.mem_mapIdx, Node.mk.injEq]
  constructor
  · rintro ⟨p, i, hi, -, rfl⟩
    exact List.getElem_mem hi
  · intro h
    obtain ⟨i, hi, rfl⟩ := List.getElem_of_mem h
    exact ⟨_, i, hi, rfl, rfl⟩

theorem Node.exists_mem_levels {fuel : ℕ} {level : List Node}
    (hf : ∀ n ∈ level, n.ast.size ≤ fuel) :
    (∃ p, ⟨p, a⟩ ∈ Node.levels fuel level) ↔ ∃ n ∈ level, n.ast.Within a := by
  induction fuel generalizing level with
  | zero =>
    simp only [Node.levels, List.not_mem_nil, exists_false, false_iff]
    rintro ⟨n, hn, -⟩
    have hle := hf n hn
    have heq := n.ast.size_eq
    omega
  | succ fuel ih =>
    have hbelow : ∀ m ∈ level.flatMap Node.children, m.ast.size ≤ fuel := by
      intro m hm
      obtain ⟨n, hn, hmn⟩ := List.mem_flatMap.1 hm
      have hlt := Ast.size_lt_of_mem_children (Node.exists_mem_children.1 ⟨m.path, hmn⟩)
      have hle := hf n hn
      omega
    simp only [Node.levels, List.mem_append, exists_or, ih hbelow]
    constructor
    · rintro (⟨p, hp⟩ | ⟨m, hm, hw⟩)
      · exact ⟨_, hp, .self a⟩
      · obtain ⟨n, hn, hmn⟩ := List.mem_flatMap.1 hm
        exact ⟨n, hn, .child (Node.exists_mem_children.1 ⟨m.path, hmn⟩) hw⟩
    · rintro ⟨n, hn, hw⟩
      cases hw with
      | self => exact .inl ⟨n.path, hn⟩
      | child hc hw =>
        obtain ⟨p, hp⟩ := Node.exists_mem_children.2 hc
        exact .inr ⟨_, List.mem_flatMap.2 ⟨n, hn, hp⟩, hw⟩

/-- **The walk meets the nodes of the tree and no others.** -/
theorem Node.exists_mem_walk {n : Node} : (∃ p, ⟨p, a⟩ ∈ n.walk) ↔ n.ast.Within a := by
  rw [Node.walk, Node.exists_mem_levels (by simp)]
  simp

/-- What the nodes of a tree are each read for. -/
theorem mem_flatMap_walk {β : Type*} {n : Node} {f : Ast → List β} {b : β} :
    b ∈ (n.walk.flatMap fun m => f m.ast) ↔ ∃ a, n.ast.Within a ∧ b ∈ f a := by
  rw [List.mem_flatMap]
  constructor
  · intro ⟨m, hm, hb⟩
    exact ⟨m.ast, Node.exists_mem_walk.1 ⟨m.path, hm⟩, hb⟩
  · intro ⟨a, ha, hb⟩
    obtain ⟨p, hp⟩ := Node.exists_mem_walk.2 ha
    exact ⟨_, hp, hb⟩

end

end Affine

end ChutesApi
