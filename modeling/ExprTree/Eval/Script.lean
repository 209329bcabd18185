import ExprTree.Eval.Host

/-!
Hosts that follow scripts.

A script says what is answered to the first, second, third request of one sort; when it is over its
last answer is repeated.
-/

namespace ExprTree

/-- What a request is about: a function, or a method, a read or a write of an object's member. -/
inductive Subject where
  | function (handle : Handle)
  | method (r : Ref) (name : String)
  | get (r : Ref) (name : String)
  | set (r : Ref) (name : String)
deriving DecidableEq

def Request.subject : Request → Subject
  | .function handle _ => .function handle
  | .method o m _ => .method o.ref m.name
  | .get o m => .get o.ref m.name
  | .set o m _ => .set o.ref m.name

/-- The values that a request hands over. -/
def Request.values : Request → List Value
  | .function _ arguments | .method _ _ arguments => arguments
  | .get .. => []
  | .set _ _ v => [v]

/-- The answers to requests about one subject, in order, under a title. -/
structure Script where
  subject : Subject
  title : String
  replies : Array Reply

/-- The answer after so many earlier requests. A script without answers gives nothing. -/
def Script.reply (s : Script) (earlier : Nat) : Reply :=
  s.replies.getD (min earlier (s.replies.size - 1)) (.value .void)

/-- The script about a subject. -/
def Script.find? (scripts : List Script) (subject : Subject) : Option Script :=
  scripts.find? fun s => s.subject = subject

/-- The host that follows scripts, and has no answer where there is none. It leaves the heap as it
is. -/
def Host.scripted (scripts : List Script) : Host where
  answer history heap request :=
    (Script.find? scripts request.subject).map fun script =>
      ⟨script.reply (history.countP fun call => call.request.subject = request.subject), heap⟩

end ExprTree
