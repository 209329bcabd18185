import Mathlib.Data.List.Nodup
import ExprTree.Proofs.Nodes
import ExprTree.Source.Directive

/-!
The symbols of trees, and where they come from.

A node mentions parameters and labels. Those with the same identity are the same one as long as all
identities come from one supply: `Drawn` makes symbols, and nodes over what was made before, one
after the other, and every step keeps them apart (`Drawn.identified`).
-/

namespace ExprTree

open Source

/-! ### Symbols of a tree -/

/-- The labels that a node mentions itself. -/
def Node.labels : Node → List Label
  | .jump _ target _ | .label target _ => [target]
  | .loop _ breakTo continueTo
  | .forLoop _ _ _ _ _ breakTo continueTo
  | .forEach _ _ _ breakTo continueTo
  | .whileLoop _ _ breakTo continueTo
  | .doWhile _ _ breakTo continueTo => breakTo.toList ++ continueTo.toList
  | _ => []

/-- The parameters and labels that a node mentions itself. -/
def Node.symbols (node : Node) : List Symbol :=
  node.parameters.map .parameter ++ node.labels.map .label

theorem Node.parameter_mem_symbols {node : Node} {p : Parameter} (mem : p ∈ node.parameters) :
    .parameter p ∈ node.symbols :=
  List.mem_append_left _ (List.mem_map_of_mem mem)

theorem Node.label_mem_symbols {node : Node} {l : Label} {fallback : Option Expr}
    (isLabel : node = .label l fallback) : .label l ∈ node.symbols := by
  subst isLabel
  exact List.mem_singleton_self _

/-- The nodes of the tree mention only certain symbols. -/
def Expr.NamesOnly (N : Symbol → Prop) (e : Expr) : Prop := e.All fun d => ∀ s ∈ d.node.symbols, N s

theorem Expr.NamesOnly.mono {M N : Symbol → Prop} {e : Expr} (named : e.NamesOnly M)
    (imp : ∀ s, M s → N s) : e.NamesOnly N :=
  fun d inside s mem => imp s (named d inside s mem)

theorem Expr.namesOnly_true (e : Expr) : e.NamesOnly fun _ => True := fun _ _ _ _ => ⟨⟩

/-! ### One supply -/

/-- What is drawn from a supply, one after the other: symbols, and nodes over symbols and trees that
were drawn before. -/
inductive Drawn : Supply → List Symbol → List Expr → Prop
  | nothing (k : Supply) : Drawn k [] []
  | parameter {k m : Supply} {symbols : List Symbol} {trees : List Expr} {type : Ty}
      {name : Option String} {p : Parameter} (before : Drawn k symbols trees)
      (made : Build.parameter type name k = .ok (p, m)) : Drawn m (.parameter p :: symbols) trees
  | label {k m : Supply} {symbols : List Symbol} {trees : List Expr} {type : Ty}
      {name : Option String} {l : Label} (before : Drawn k symbols trees)
      (made : Build.label type name k = .ok (l, m)) : Drawn m (.label l :: symbols) trees
  | node {k m : Supply} {symbols : List Symbol} {trees : List Expr} {node : Node} {e : Expr}
      (before : Drawn k symbols trees) (made : Build.unchecked node k = .ok (e, m))
      (mentioned : node.symbols ⊆ symbols) (children : node.children ⊆ trees) :
      Drawn m symbols (e :: trees)

/-- Symbols with different identities below that of the supply, and trees that mention no others. -/
structure Identified (k : Supply) (symbols : List Symbol) (trees : List Expr) : Prop where
  older : ∀ s ∈ symbols, s.id < k
  distinct : (symbols.map Symbol.id).Nodup
  trees_older : ∀ e ∈ trees, e.Older k
  trees_named : ∀ e ∈ trees, e.NamesOnly (· ∈ symbols)

namespace Identified

variable {k : Supply} {symbols : List Symbol} {trees : List Expr}

theorem nothing (k : Supply) : Identified k [] [] :=
  ⟨List.forall_mem_nil _, .nil, List.forall_mem_nil _, List.forall_mem_nil _⟩

/-- A symbol with the next identity differs from all others. -/
theorem symbol {s : Symbol} (identified : Identified k symbols trees) (next : s.id = k) :
    Identified (k + 1) (s :: symbols) trees where
  older := by
    intro t mem
    rcases List.mem_cons.mp mem with rfl | mem
    · exact Nat.lt_succ_of_le (Nat.le_of_eq next)
    · exact Nat.lt_succ_of_lt (identified.older t mem)
  distinct := by
    refine List.nodup_cons.mpr ⟨fun taken => ?_, identified.distinct⟩
    obtain ⟨t, mem, same⟩ := List.mem_map.mp taken
    exact absurd (same.trans next) (Nat.ne_of_lt (identified.older t mem))
  trees_older := fun e mem => (identified.trees_older e mem).mono (Nat.le_succ k)
  trees_named := fun e mem => (identified.trees_named e mem).mono fun _ known => .tail _ known

/-- A node with the next identity is over what there is. -/
theorem node {e : Expr} (identified : Identified k symbols trees) (next : e.id = k)
    (mentioned : e.node.symbols ⊆ symbols) (children : e.children ⊆ trees) :
    Identified (k + 1) symbols (e :: trees) where
  older := fun s mem => Nat.lt_succ_of_lt (identified.older s mem)
  distinct := identified.distinct
  trees_older := by
    have below (c : Expr) (mem : c ∈ trees) : c.Older (k + 1) :=
      (identified.trees_older c mem).mono (Nat.le_succ k)
    refine List.forall_mem_cons.mpr ⟨Expr.all_iff.mpr ⟨?_, fun c child => ?_⟩, below⟩
    · exact Nat.lt_succ_of_le (Nat.le_of_eq next)
    · exact below c (children child)
  trees_named := by
    have below := identified.trees_named
    refine List.forall_mem_cons.mpr ⟨Expr.all_iff.mpr ⟨?_, fun c child => ?_⟩, below⟩
    · exact fun s mem => mentioned mem
    · exact below c (children child)

/-- Symbols with the same identity are the same one. -/
theorem eq_of_id {s t : Symbol} (identified : Identified k symbols trees) (mem : s ∈ symbols)
    (mem' : t ∈ symbols) (same : s.id = t.id) : s = t :=
  List.inj_on_of_nodup_map identified.distinct mem mem' same

end Identified

theorem Drawn.identified {k : Supply} {symbols : List Symbol} {trees : List Expr}
    (drawn : Drawn k symbols trees) : Identified k symbols trees := by
  induction drawn with
  | nothing k => exact .nothing k
  | parameter before made ih =>
      obtain ⟨rfl, rfl⟩ := Build.parameter_eq_ok.mp made
      exact ih.symbol rfl
  | label before made ih =>
      obtain ⟨rfl, rfl⟩ := Build.label_eq_ok.mp made
      exact ih.symbol rfl
  | node before made mentioned children ih =>
      obtain ⟨rfl, rfl, rfl⟩ := Build.unchecked_eq_ok.mp made
      exact ih.node rfl mentioned children

end ExprTree
