import ExprTree.Expr.Children

/-!
Induction over trees.

A child is lower than its parent. So a fact about all trees follows from its step from children to
parents, and a function given by `Expr.recurse` satisfies the equation that its step states, as
long as the step asks for nothing but children. More generally, `Expr.recurseBy` gives the one
function that satisfies the equation of a step which asks for trees of a smaller measure.
-/

namespace ExprTree

/-! ### Heights of children -/

theorem Expr.height_le_heightList {c : Expr} {es : List Expr} (mem : c ∈ es) :
    c.height ≤ Expr.heightList es := by
  induction es with
  | nil => cases mem
  | cons e es ih =>
      simp only [Expr.heightList]
      cases mem with
      | head => omega
      | tail _ rest =>
          have := ih rest
          omega

theorem Expr.height_le_heightOption {c : Expr} {e : Option Expr} (mem : c ∈ e.toList) :
    c.height ≤ Expr.heightOption e := by
  cases e with
  | none => cases mem
  | some e =>
      simp only [Option.toList_some, List.mem_singleton] at mem
      subst mem
      simp only [Expr.heightOption, Nat.le_refl]

theorem SwitchCase.height_le_heightList {c : Expr} {cs : List SwitchCase}
    (mem : c ∈ cs.flatMap fun c => c.tests ++ [c.body]) :
    c.height ≤ SwitchCase.heightList cs := by
  induction cs with
  | nil => cases mem
  | cons first cs ih =>
      obtain ⟨tests, body⟩ := first
      simp only [List.flatMap_cons, List.append_assoc, List.mem_append, List.mem_singleton] at mem
      simp only [SwitchCase.heightList, SwitchCase.height]
      rcases mem with mem | rfl | mem
      · have := Expr.height_le_heightList mem
        omega
      · omega
      · have := ih mem
        omega

theorem Handler.height_le_heightList {c : Expr} {hs : List Handler}
    (mem : c ∈ hs.flatMap fun h => h.filter.toList ++ [h.body]) :
    c.height ≤ Handler.heightList hs := by
  induction hs with
  | nil => cases mem
  | cons first hs ih =>
      obtain ⟨tested, caught, filter, body⟩ := first
      simp only [List.flatMap_cons, List.append_assoc, List.mem_append, List.mem_singleton] at mem
      simp only [Handler.heightList, Handler.height]
      rcases mem with mem | rfl | mem
      · have := Expr.height_le_heightOption mem
        omega
      · omega
      · have := ih mem
        omega

theorem ElementInit.height_le_heightList {c : Expr} {is : List ElementInit}
    (mem : c ∈ is.flatMap ElementInit.arguments) : c.height ≤ ElementInit.heightList is := by
  induction is with
  | nil => cases mem
  | cons first is ih =>
      obtain ⟨method, arguments⟩ := first
      simp only [List.flatMap_cons, List.mem_append] at mem
      simp only [ElementInit.heightList, ElementInit.height]
      rcases mem with mem | mem
      · have := Expr.height_le_heightList mem
        omega
      · have := ih mem
        omega

mutual

theorem Binding.height_le {c : Expr} : (b : Binding) → c ∈ b.children → c.height ≤ b.height
  | .assignment _ value, mem => by
      simp only [Binding.children, List.mem_singleton] at mem
      subst mem
      simp only [Binding.height, Nat.le_refl]
  | .elements _ initializers, mem => by
      simp only [Binding.children] at mem
      simpa only [Binding.height] using ElementInit.height_le_heightList mem
  | .members _ nested, mem => by
      simp only [Binding.children] at mem
      simpa only [Binding.height] using Binding.height_le_heightList nested mem

theorem Binding.height_le_heightList {c : Expr} :
    (bs : List Binding) → c ∈ Binding.childrenList bs → c.height ≤ Binding.heightList bs
  | [], mem => by simp only [Binding.childrenList, List.not_mem_nil] at mem
  | b :: bs, mem => by
      simp only [Binding.childrenList, List.mem_append] at mem
      simp only [Binding.heightList]
      rcases mem with mem | mem
      · have := Binding.height_le b mem
        omega
      · have := Binding.height_le_heightList bs mem
        omega

end

theorem Node.height_le {c : Expr} {node : Node} (mem : c ∈ node.children) :
    c.height ≤ node.height := by
  cases node with
  | constant | parameter | default => cases mem
  | lambda l =>
      obtain ⟨name, parameters, body, returns⟩ := l
      simp only [Node.children, List.mem_singleton] at mem
      simp only [mem, Node.height, Lambda.height, Nat.le_refl]
  | unary | typeTest | loop =>
      simp only [Node.children, List.mem_singleton] at mem
      simp only [mem, Node.height, Nat.le_refl]
  | binary | forEach | whileLoop | doWhile | usingBlock | forLoop =>
      simp only [Node.children, List.mem_cons, List.not_mem_nil, or_false] at mem
      simp only [Node.height]
      grind
  | block _ statements => exact Expr.height_le_heightList mem
  | create _ arguments => exact Expr.height_le_heightList mem
  | newArray _ _ items => exact Expr.height_le_heightList mem
  | jump _ _ value => exact Expr.height_le_heightOption mem
  | label _ fallback => exact Expr.height_le_heightOption mem
  | member target => exact Expr.height_le_heightOption mem
  | conditional test ifTrue ifFalse =>
      simp only [Node.children, List.mem_cons] at mem
      simp only [Node.height]
      rcases mem with rfl | rfl | mem
      · omega
      · omega
      · have := Expr.height_le_heightOption mem
        omega
  | switch value cases fallback =>
      simp only [Node.children, List.cons_append, List.mem_cons, List.mem_append] at mem
      simp only [Node.height]
      rcases mem with rfl | mem | mem
      · omega
      · have := SwitchCase.height_le_heightList mem
        omega
      · have := Expr.height_le_heightOption mem
        omega
  | attempt body handlers fault finalizer =>
      simp only [Node.children, List.cons_append, List.mem_cons, List.mem_append] at mem
      simp only [Node.height]
      rcases mem with rfl | (mem | mem) | mem
      · omega
      · have := Handler.height_le_heightList mem
        omega
      · have := Expr.height_le_heightOption mem
        omega
      · have := Expr.height_le_heightOption mem
        omega
  | listInit created initializers =>
      simp only [Node.children, List.mem_cons] at mem
      simp only [Node.height]
      rcases mem with rfl | mem
      · omega
      · have := ElementInit.height_le_heightList mem
        omega
  | memberInit created bindings =>
      simp only [Node.children, List.mem_cons] at mem
      simp only [Node.height]
      rcases mem with rfl | mem
      · omega
      · have := Binding.height_le_heightList bindings mem
        omega
  | call target _ arguments =>
      simp only [Node.children, List.mem_append] at mem
      simp only [Node.height]
      rcases mem with mem | mem
      · have := Expr.height_le_heightOption mem
        omega
      · have := Expr.height_le_heightList mem
        omega
  | invocation target arguments | index target arguments =>
      simp only [Node.children, List.mem_cons] at mem
      simp only [Node.height]
      rcases mem with rfl | mem
      · omega
      · have := Expr.height_le_heightList mem
        omega

/-- A child is lower than its parent. -/
theorem Expr.height_lt_of_mem_children {c e : Expr} (mem : c ∈ e.children) :
    c.height < e.height := by
  obtain ⟨id, node⟩ := e
  exact Nat.lt_succ_of_le (Node.height_le mem)

/-! ### Induction and recursion -/

/-- Induction from children to parents. -/
theorem Expr.inductionOnChildren {motive : Expr → Prop}
    (step : ∀ e, (∀ c ∈ e.children, motive c) → motive e) (e : Expr) : motive e := by
  have below : ∀ n (e : Expr), e.height < n → motive e := by
    intro n
    induction n with
    | zero =>
        intro e lt
        omega
    | succ n ih =>
        intro e lt
        refine step e fun c mem => ih c ?_
        have := Expr.height_lt_of_mem_children mem
        omega
  exact below (e.height + 1) e (by omega)

/-- A step that asks for nothing but children. -/
def Expr.AsksChildren {α : Type} (step : (Expr → α) → Expr → α) : Prop :=
  ∀ f g e, (∀ c ∈ e.children, f c = g c) → step f e = step g e

/-- A step that asks for nothing but trees of which the measure is smaller, children or not. -/
def Expr.AsksBelow {α : Type} (measure : Expr → Nat) (step : (Expr → α) → Expr → α) : Prop :=
  ∀ f g e, (∀ d : Expr, measure d < measure e → f d = g d) → step f e = step g e

section

variable {α : Type} {measure : Expr → Nat} {base : Expr → α} {step : (Expr → α) → Expr → α}
  (positive : ∀ e, 0 < measure e) (asks : Expr.AsksBelow measure step)

include positive asks

/-- Depth beyond the measure of a tree makes no difference. -/
theorem Expr.within_of_measure_le {m n : Nat} {e : Expr} (hm : measure e ≤ m)
    (hn : measure e ≤ n) : Expr.within base step m e = Expr.within base step n e := by
  have some_depth := positive e
  induction m generalizing n e with
  | zero => omega
  | succ m ih =>
      cases n with
      | zero => omega
      | succ n => exact asks _ _ e fun d lower => ih (by omega) (by omega) (positive d)

/-- A function given by its step satisfies the equation that the step states. -/
theorem Expr.recurseBy_eq (e : Expr) :
    Expr.recurseBy measure base step e = step (Expr.recurseBy measure base step) e := by
  obtain ⟨d, depth⟩ := Nat.exists_eq_add_one.mpr (positive e)
  rw [Expr.recurseBy, depth]
  exact asks _ _ e fun c lower => Expr.within_of_measure_le positive asks (by omega) (Nat.le_refl _)

/-- No other function satisfies the equation. -/
theorem Expr.eq_recurseBy {f : Expr → α} (equation : ∀ e, f e = step f e) (e : Expr) :
    f e = Expr.recurseBy measure base step e := by
  induction size : measure e using Nat.strongRecOn generalizing e with
  | ind n ih =>
      rw [equation e, Expr.recurseBy_eq positive asks]
      exact asks _ _ e fun d lower => ih _ (size ▸ lower) d rfl

end

theorem Expr.height_pos (e : Expr) : 0 < e.height := by
  obtain ⟨id, node⟩ := e
  exact Nat.succ_pos node.height

theorem Expr.recurse_eq {α : Type} {base : Expr → α} {step : (Expr → α) → Expr → α}
    (asks : Expr.AsksChildren step) (e : Expr) :
    Expr.recurse base step e = step (Expr.recurse base step) e := by
  refine Expr.recurseBy_eq Expr.height_pos (fun f g e same => ?_) e
  exact asks f g e fun c mem => same c (Expr.height_lt_of_mem_children mem)

end ExprTree
