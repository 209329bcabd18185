import ExprTree.Combine
import ExprTree.Proofs.Assigned
import ExprTree.Proofs.Rebinding
import ExprTree.Proofs.Renamed
import ExprTree.Proofs.Symbols

/-!
Combining lambdas.

The body of a lambda is put on copies of its parameters without capture: no parameter of the lambda
is left in it, neither read nor bound, and every other variable is what it was. What is made of the
body keeps its static type (`Lambda.WellFormed.exists_bodyOn`), and a lambda over it is invoked like
the lambda that it comes from.
-/

namespace ExprTree

open Eval

/-! ### Lambdas and copies of their parameters -/

/-- What holds of a lambda that is built through the checks from different parameters, while
identities are drawn from a supply: everything in it has an identity that was drawn before, and a
variable with the identity of a parameter is that parameter. -/
structure Lambda.WellFormed (l : Lambda) (k : Supply) : Prop where
  distinct : (l.parameters.map Parameter.id).Nodup
  drawn : ∀ p ∈ l.parameters, p.id < k
  built : l.body.All Expr.IsBuilt
  older : l.body.Older k
  locals : l.body.All fun d => ∀ p ∈ d.node.parameters,
    p.id < k ∧ ∀ q ∈ l.parameters, q.id = p.id → q = p

/-- A lambda over different parameters is well-formed if it is drawn from the supply. -/
theorem Drawn.wellFormed {k : Supply} {symbols : List Source.Symbol} {trees : List Expr}
    {l : Lambda} (drawn : Drawn k symbols trees) (different : l.parameters.Nodup)
    (parameters : ∀ p ∈ l.parameters, .parameter p ∈ symbols) (body : l.body ∈ trees)
    (built : l.body.All Expr.IsBuilt) : l.WellFormed k := by
  have identified := drawn.identified
  have same {p q : Parameter} (memP : .parameter p ∈ symbols) (memQ : .parameter q ∈ symbols)
      (ids : p.id = q.id) : p = q :=
    Source.Symbol.parameter.inj (identified.eq_of_id memP memQ ids)
  constructor
  case distinct =>
    exact different.map_on fun p memP q memQ => same (parameters p memP) (parameters q memQ)
  case drawn => exact fun p mem => identified.older _ (parameters p mem)
  case built => exact built
  case older => exact identified.trees_older l.body body
  case locals =>
    intro d inside p mem
    have known := identified.trees_named l.body body d inside _ (Node.parameter_mem_symbols mem)
    exact ⟨identified.older _ known, fun q memQ ids => same (parameters q memQ) known ids⟩

/-- Parameters that take the places of others: of the same types, and with identities that were
drawn one after another from a supply on. -/
structure Replaces (k : Supply) (ps qs : List Parameter) : Prop where
  types : ps.map Parameter.type = qs.map Parameter.type
  identities : qs.map Parameter.id = List.range' k qs.length

/-- A parameter and the one in its place, or an older variable that is no parameter. -/
inductive Replaced (k : Supply) (pairs : List (Parameter × Parameter)) :
    Parameter → Parameter → Prop
  | bound {p q : Parameter} (mem : (p, q) ∈ pairs) (type : p.type = q.type) : Replaced k pairs p q
  | free {p : Parameter} (older : p.id < k) (other : ∀ b ∈ pairs, p.id ≠ b.1.id) :
      Replaced k pairs p p

namespace Replaces

variable {k : Supply} {ps qs : List Parameter}

theorem length (replaces : Replaces k ps qs) : ps.length = qs.length := by
  simpa using congrArg List.length replaces.types

theorem drawn (replaces : Replaces k ps qs) {q : Parameter} (mem : q ∈ qs) :
    k ≤ q.id ∧ q.id < k + qs.length := by
  have inside := List.mem_map_of_mem (f := Parameter.id) mem
  rw [replaces.identities] at inside
  exact List.mem_range'_1.mp inside

theorem nodup (replaces : Replaces k ps qs) : (qs.map Parameter.id).Nodup :=
  replaces.identities ▸ List.nodup_range'

end Replaces

theorem exists_mapM_copyOf (ps : List Parameter) (k : Supply) :
    ∃ qs, ps.mapM Build.copyOf k = .ok (qs, k + qs.length) ∧ Replaces k ps qs := by
  induction ps generalizing k with
  | nil => exact ⟨[], rfl, rfl, rfl⟩
  | cons p ps ih =>
      obtain ⟨qs, ok, replaces⟩ := ih (k + 1)
      refine ⟨⟨k, p.name, p.type⟩ :: qs, ?_, ?_, ?_⟩
      · rw [List.mapM_cons]
        refine Build.bind_eq_ok.mpr ⟨_, _, Build.parameter_eq_ok.mpr ⟨rfl, rfl⟩, ?_⟩
        refine Build.bind_eq_ok.mpr ⟨_, _, ok, Build.pure_eq_ok.mpr ⟨rfl, ?_⟩⟩
        rw [List.length_cons, Nat.add_right_comm, Nat.add_assoc]
      · rw [List.map_cons, List.map_cons, replaces.types]
      · rw [List.map_cons, replaces.identities, List.length_cons, List.range'_succ]

theorem Lambda.exists_freshParameters (l : Lambda) (k : Supply) :
    ∃ qs, l.freshParameters k = .ok (qs, k + qs.length) ∧ Replaces k l.parameters qs :=
  exists_mapM_copyOf l.parameters k

namespace Replaces

variable {k : Supply} {ps qs : List Parameter} {p : Parameter}

theorem type_eq (replaces : Replaces k ps qs) {b : Parameter × Parameter} (mem : b ∈ ps.zip qs) :
    b.1.type = b.2.type := by
  have types : List.Forall₂ Eq (ps.map Parameter.type) (qs.map Parameter.type) :=
    List.forall₂_eq_eq_eq ▸ replaces.types
  rw [List.forall₂_map_left_iff, List.forall₂_map_right_iff, List.forall₂_iff_zip] at types
  exact types.2 mem

/-- A variable is replaced by the copy of the parameter that it is, and kept if it is none. -/
theorem replaced_substitute (replaces : Replaces k ps qs) (older : p.id < k)
    (coherent : ∀ q ∈ ps, q.id = p.id → q = p) :
    Replaced k (ps.zip qs) p (substitute (ps.zip qs) p) ∧
      ((substitute (ps.zip qs) p).id = p.id → substitute (ps.zip qs) p = p) := by
  unfold substitute
  cases found : (ps.zip qs).find? fun pair => pair.1.same p with
  | some pair =>
      obtain ⟨q, copy⟩ := pair
      have mem := List.mem_of_find?_eq_some found
      have sameId : q.id = p.id := by simpa [Parameter.same] using List.find?_some found
      have same : q = p := coherent q (List.of_mem_zip mem).1 sameId
      subst same
      refine ⟨.bound mem (replaces.type_eq mem), fun kept => ?_⟩
      have newer := (replaces.drawn (List.of_mem_zip mem).2).1
      rw [kept] at newer
      exact absurd older (Nat.not_lt.mpr newer)
  | none =>
      refine ⟨.free older fun b mem same => ?_, fun _ => rfl⟩
      have other := List.find?_eq_none.mp found b mem
      exact other (beq_iff_eq.mpr same.symm)

end Replaces

theorem Replaced.type_eq {k : Supply} {pairs : List (Parameter × Parameter)} {p q : Parameter}
    (replaced : Replaced k pairs p q) : p.type = q.type := by
  cases replaced with
  | bound _ type => exact type
  | free => rfl

/-! ### Bodies on copies of parameters -/

namespace Lambda.WellFormed

variable {l : Lambda} {k m : Supply} {qs : List Parameter}

/-- The body of a lambda can be put on other parameters, and is alike then. -/
theorem exists_bodyOn (formed : l.WellFormed k) (replaces : Replaces k l.parameters qs)
    (reached : k ≤ m) :
    ∃ body m', l.bodyOn qs m = .ok (body, m') ∧ m ≤ m' ∧
      l.body.AlikeBy (Replaced k (l.parameters.zip qs)) body ∧ body.Older m' := by
  refine Expr.exists_rename Replaced.type_eq formed.built formed.older ?_ reached
  intro d mem p inside
  obtain ⟨older, coherent⟩ := formed.locals d mem p inside
  exact replaces.replaced_substitute older coherent

/-- No parameter of the lambda is left. -/
theorem avoids {body : Expr} (formed : l.WellFormed k) (replaces : Replaces k l.parameters qs)
    (alike : l.body.AlikeBy (Replaced k (l.parameters.zip qs)) body) :
    body.Avoids l.parameters := by
  intro d mem q inside p parameter same
  obtain ⟨_, -, _, -, replaced⟩ := alike.exists_of_mem_parameters mem inside
  cases replaced with
  | bound pair =>
      have newer := (replaces.drawn (List.of_mem_zip pair).2).1
      exact absurd (formed.drawn p parameter) (same ▸ Nat.not_lt.mpr newer)
  | free _ other =>
      rw [← List.map_fst_zip (Nat.le_of_eq replaces.length)] at parameter
      obtain ⟨b, pair, rfl⟩ := List.mem_map.mp parameter
      exact other b pair same

/-! ### Invocations -/

theorem distinct_zip (formed : l.WellFormed k) (replaces : Replaces k l.parameters qs) :
    Renaming.Distinct (l.parameters.zip qs) := by
  have left : ((l.parameters.zip qs).map fun b => b.1.id).Nodup := by
    have ids := formed.distinct
    rwa [← List.map_fst_zip (Nat.le_of_eq replaces.length), List.map_map] at ids
  have right : ((l.parameters.zip qs).map fun b => b.2.id).Nodup := by
    have ids := replaces.nodup
    rwa [← List.map_snd_zip (Nat.le_of_eq replaces.length.symm), List.map_map] at ids
  exact (List.pairwise_map.mp left).and (List.pairwise_map.mp right)

end Lambda.WellFormed

/-- Parameters stand for those in their places, and every other variable for itself. -/
def Renaming.replacing (pairs : List (Parameter × Parameter)) : Renaming :=
  (Renaming.fixing fun x => ∀ b ∈ pairs, x ≠ b.1.id ∧ x ≠ b.2.id).extendAll pairs

namespace Renaming

variable {k : Supply} {ps qs : List Parameter} {p q : Parameter}

theorem replacing_of_other {pairs : List (Parameter × Parameter)}
    (others : ∀ b ∈ pairs, p.id ≠ b.1.id ∧ p.id ≠ b.2.id) : (replacing pairs).Local p p :=
  ⟨extendAll_of_locals ⟨rfl, others⟩ others, rfl, .inl rfl⟩

theorem local_of_replaced (replaces : Replaces k ps qs) (distinct : Distinct (ps.zip qs))
    (replaced : Replaced k (ps.zip qs) p q) : (replacing (ps.zip qs)).Local p q := by
  cases replaced with
  | bound mem type =>
      obtain ⟨locals, known⟩ := extendAll_of_mem distinct mem
      exact ⟨locals, type, .inr known⟩
  | free older other =>
      refine replacing_of_other fun b mem => ⟨other b mem, fun same => ?_⟩
      have newer := (replaces.drawn (List.of_mem_zip mem).2).1
      exact absurd older (same ▸ Nat.not_lt.mpr newer)

theorem matching_replacing {m : Supply} (replaces : Replaces k ps qs)
    (drawn : ∀ p ∈ ps, p.id < k) (reached : k + qs.length ≤ m) :
    Matching m (replacing (ps.zip qs)).Local where
  type := Local.type
  new := by
    intro p newer
    refine replacing_of_other fun b mem => ?_
    have old : b.1.id < m :=
      Nat.lt_of_lt_of_le (drawn b.1 (List.of_mem_zip mem).1) (Nat.le_of_add_right_le reached)
    have copied : b.2.id < m :=
      Nat.lt_of_lt_of_le (replaces.drawn (List.of_mem_zip mem).2).2 reached
    exact ⟨Nat.ne_of_gt (Nat.lt_of_lt_of_le old newer),
      Nat.ne_of_gt (Nat.lt_of_lt_of_le copied newer)⟩

end Renaming

/-- A lambda and its copy on other parameters are invoked alike. -/
theorem Lambda.WellFormed.sameEnd_invoke {host : Host} {l l' : Lambda} {k : Supply} {s : State}
    (formed : l.WellFormed k) (replaces : Replaces k l.parameters l'.parameters)
    (alike : l.body.AlikeBy (Replaced k (l.parameters.zip l'.parameters)) l'.body)
    (older : l'.body.Older s.supply) (reached : k + l'.parameters.length ≤ s.supply)
    (discreet : host.Discreet) (n : Nat) (arguments : List Value) :
    SameEnd (l.invoke host n arguments s) (l'.invoke host n arguments s) := by
  have distinct := formed.distinct_zip replaces
  refine Renaming.sameEnd_invoke discreet replaces.length distinct ?_
    (Renaming.matching_replacing replaces formed.drawn reached)
    (formed.older.mono (Nat.le_of_add_right_le reached)) older
    (alike.imp fun _ _ => Renaming.local_of_replaced replaces distinct) (Nat.le_refl _)
    (Renaming.states_fixing _ s) n arguments
  rintro b mem y _ ⟨rfl, others⟩
  exact iff_of_false (others b mem).1 (others b mem).2

/-! ### Combinators -/

namespace Combine

variable {α β : Type} {k m : Supply}

theorem bind_of_ok {x : Combine α} {f : α → Combine β} {a : α} (ok : x k = .ok (a, m)) :
    (x >>= f) k = f a m := by
  change (x k).bind (fun r => f r.1 r.2) = _
  rw [ok]
  rfl

theorem exists_of_bind {x : Combine α} {f : α → Combine β} {r : β × Supply}
    (ok : (x >>= f) k = .ok r) : ∃ a m, x k = .ok (a, m) ∧ f a m = .ok r := by
  change (x k).bind (fun r => f r.1 r.2) = _ at ok
  cases first : x k with
  | error e =>
      rw [first] at ok
      cases ok
  | ok pair =>
      rw [first] at ok
      exact ⟨pair.1, pair.2, rfl, ok⟩

theorem lift_of_ok {x : Build α} {a : α} (ok : x k = .ok (a, m)) :
    (liftM x : Combine α) k = .ok (a, m) := by
  change (x k).mapError _ = _
  rw [ok]
  rfl

theorem ok_of_lift {x : Build α} {r : α × Supply} (ok : (liftM x : Combine α) k = .ok r) :
    x k = .ok r := by
  change (x k).mapError _ = _ at ok
  cases first : x k with
  | error e =>
      rw [first] at ok
      cases ok
  | ok pair =>
      rw [first] at ok
      exact congrArg Except.ok (Except.ok.inj ok)

end Combine

namespace Lambda

theorem types_eq_of_mismatch {ps qs : List Parameter} {position : Nat}
    (length : ps.length = qs.length) (none : mismatch? position ps qs = none) :
    ps.map Parameter.type = qs.map Parameter.type := by
  induction ps generalizing qs position with
  | nil =>
      cases qs with
      | nil => rfl
      | cons => cases length
  | cons p ps ih =>
      cases qs with
      | nil => cases length
      | cons q qs =>
          unfold mismatch? at none
          split at none
          · next same => rw [List.map_cons, List.map_cons, same, ih (Nat.succ.inj length) none]
          · cases none

/-- Compatible lambdas take parameters of the same types. The check draws nothing. -/
theorem types_eq_of_compatible {first second : Lambda} {k : Supply} {r : Unit × Supply}
    (compatible : first.checkCompatible second k = .ok r) :
    first.parameters.map Parameter.type = second.parameters.map Parameter.type ∧ r = ((), k) := by
  unfold checkCompatible at compatible
  split at compatible
  · cases compatible
  · next length =>
      cases found : mismatch? 0 first.parameters second.parameters with
      | none =>
          rw [found] at compatible
          exact ⟨types_eq_of_mismatch (not_not.mp length) found, (Except.ok.inj compatible).symm⟩
      | some e =>
          rw [found] at compatible
          cases compatible

end Lambda

namespace Lambda.WellFormed

variable {l second : Lambda} {k : Supply}

/-- What a combinator is given: the body on copies of the parameters. -/
theorem combine_eq (formed : l.WellFormed k) :
    ∃ qs body k', Replaces k l.parameters qs ∧ k + qs.length ≤ k' ∧
      l.body.AlikeBy (Replaced k (l.parameters.zip qs)) body ∧ body.Older k' ∧
      ∀ combinator : Expr → Combine Expr,
        l.combine combinator k =
          (do return Lambda.of qs (← combinator body) : Combine Lambda) k' := by
  obtain ⟨qs, copied, replaces⟩ := l.exists_freshParameters k
  obtain ⟨body, k', made, le, alike, older⟩ :=
    formed.exists_bodyOn replaces (Nat.le_add_right k qs.length)
  refine ⟨qs, body, k', replaces, le, alike, older, fun combinator => ?_⟩
  refine Combine.bind_of_ok (a := (qs, body)) ?_
  refine (Combine.bind_of_ok (Combine.lift_of_ok copied)).trans ?_
  exact Combine.bind_of_ok (Combine.lift_of_ok made)

/-- What a combinator of two is given: both bodies on the same copies of the parameters. -/
theorem combineWith_eq (formed : l.WellFormed k) (formed' : second.WellFormed k)
    (compatible : l.checkCompatible second k = .ok ((), k)) :
    ∃ qs left right k', Replaces k l.parameters qs ∧ Replaces k second.parameters qs ∧
      k + qs.length ≤ k' ∧
      l.body.AlikeBy (Replaced k (l.parameters.zip qs)) left ∧
      second.body.AlikeBy (Replaced k (second.parameters.zip qs)) right ∧
      left.Older k' ∧ right.Older k' ∧
      ∀ combinator : Expr → Expr → Combine Expr, l.combineWith second combinator k =
        (do return Lambda.of qs (← combinator left right) : Combine Lambda) k' := by
  obtain ⟨qs, copied, replaces⟩ := l.exists_freshParameters k
  have replaces' : Replaces k second.parameters qs :=
    ⟨(types_eq_of_compatible compatible).1.symm.trans replaces.types, replaces.identities⟩
  obtain ⟨left, m, made, le, alike, older⟩ :=
    formed.exists_bodyOn replaces (Nat.le_add_right k qs.length)
  obtain ⟨right, k', made', le', alike', older'⟩ :=
    formed'.exists_bodyOn replaces' (Nat.le_trans (Nat.le_add_right k qs.length) le)
  refine ⟨qs, left, right, k', replaces, replaces', Nat.le_trans le le', alike, alike',
    older.mono le', older', fun combinator => ?_⟩
  refine Combine.bind_of_ok (a := (qs, left, right)) ?_
  refine (Combine.bind_of_ok compatible).trans ?_
  refine (Combine.bind_of_ok (Combine.lift_of_ok copied)).trans ?_
  refine (Combine.bind_of_ok (Combine.lift_of_ok made)).trans ?_
  exact Combine.bind_of_ok (Combine.lift_of_ok made')

end Lambda.WellFormed

/-- Combining is renaming without capture. A combinator is given the body of the lambda, or the
bodies of two compatible ones, on new parameters. No parameter of the lambda is left in it, neither
read nor bound, and it has the static type of the body. The lambda that is combined with nothing is
invoked like the one that it comes from: with the same outcome and the same calls of the host,
except that closures may differ in their parameters. -/
theorem combined_without_capture {l : Lambda} {k : Supply} (formed : l.WellFormed k) :
    (∃ qs body k', body.type = l.body.type ∧ body.Avoids l.parameters ∧
      ∀ combinator : Expr → Combine Expr, l.combine combinator k =
        (do return Lambda.of qs (← combinator body) : Combine Lambda) k') ∧
    (∀ second : Lambda, second.WellFormed k → l.checkCompatible second k = .ok ((), k) →
      ∃ qs left right k', left.type = l.body.type ∧ left.Avoids l.parameters ∧
        right.type = second.body.type ∧ right.Avoids second.parameters ∧
        ∀ combinator : Expr → Expr → Combine Expr, l.combineWith second combinator k =
          (do return Lambda.of qs (← combinator left right) : Combine Lambda) k') ∧
    ∃ l' k', l.combine (pure : Expr → Combine Expr) k = .ok (l', k') ∧
      ∀ (host : Host) (n : Nat) (arguments : List Value) (s : State), host.Discreet →
        k' ≤ s.supply → SameEnd (l.invoke host n arguments s) (l'.invoke host n arguments s) := by
  have types {l : Lambda} {qs : List Parameter} {body : Expr}
      (alike : l.body.AlikeBy (Replaced k (l.parameters.zip qs)) body) : body.type = l.body.type :=
    (alike.type_eq fun _ _ => Replaced.type_eq).symm
  obtain ⟨qs, body, k', replaces, reached, alike, older, combined⟩ := formed.combine_eq
  refine ⟨⟨qs, body, k', types alike, formed.avoids replaces alike, combined⟩, ?_, ?_⟩
  · intro second formed' compatible
    obtain ⟨qs, left, right, k', replaces, replaces', -, alike, alike', -, -, combined⟩ :=
      formed.combineWith_eq formed' compatible
    exact ⟨qs, left, right, k', types alike, formed.avoids replaces alike, types alike',
      formed'.avoids replaces' alike', combined⟩
  · refine ⟨.of qs body, k', combined pure, ?_⟩
    intro host n arguments s discreet later
    have copied : Replaces k l.parameters (Lambda.of qs body).parameters := replaces
    exact formed.sameEnd_invoke copied alike (older.mono later) (Nat.le_trans reached later)
      discreet n arguments

/-! ### A lambda that binds its own parameter again

`x => { for (x = 0; x < 2; ++x) x; (z => x + z)(x); }`, which reads its parameter inside of a
closure. -/

namespace Doubling

def x : Parameter := ⟨0, some "x", .int32⟩

def z : Parameter := ⟨1, some "z", .int32⟩

def looping : Expr :=
  ⟨9, .forLoop x ⟨2, .constant (.int32 0) .int32⟩
    ⟨5, .binary .lessThan ⟨3, .parameter x⟩ ⟨4, .constant (.int32 2) .int32⟩ false false .boolean⟩
    ⟨7, .unary .preIncrementAssign ⟨6, .parameter x⟩ .int32⟩ ⟨8, .parameter x⟩ none none⟩

def adding : Expr :=
  ⟨13, .lambda ⟨none, [z],
    ⟨12, .binary .add ⟨10, .parameter x⟩ ⟨11, .parameter z⟩ false false .int32⟩, .int32⟩⟩

def doubler : Lambda :=
  ⟨none, [x],
    ⟨16, .block [] [looping, ⟨15, .invocation adding [⟨14, .parameter x⟩] .int32⟩] .int32⟩, .int32⟩

theorem renamed_doubler_gives_six :
    doubler.WellFormed 17 ∧ ¬ doubler.body.Avoids [x] ∧
    ∃ l' k' s, doubler.combine (pure : Expr → Combine Expr) 17 = .ok (l', k') ∧
      l'.body.Avoids [x] ∧
      l'.invoke .absent 12 [.int32 3] { supply := 40 } = some (.value (.int32 6), s) := by
  have accepted : doubler.body.All Expr.IsAccepted := by decide
  have formed : doubler.WellFormed 17 :=
    ⟨by decide, by decide, fun d mem => .inl (accepted d mem), by decide, by decide⟩
  refine ⟨formed, by decide, ?_⟩
  obtain ⟨⟨qs, body, k', -, avoids, combined⟩, -, l', m, made, same⟩ :=
    combined_without_capture formed
  have whole : l' = .of qs body ∧ m = k' := by
    have pair := (combined pure).symm.trans made
    cases pair
    exact ⟨rfl, rfl⟩
  obtain ⟨rfl, rfl⟩ := whole
  have drawn : (doubler.combine (pure : Expr → Combine Expr) 17).map Prod.snd = .ok 30 := rfl
  rw [made] at drawn
  have supply : m ≤ 40 := by
    cases drawn
    decide
  have ended := same .absent 12 [.int32 3] { supply := 40 } Host.discreet_absent supply
  obtain ⟨t, invoked, -⟩ := ended.exists_of_eq_some (o := .value (.int32 6)) rfl
  exact ⟨.of qs body, m, t, made, avoids, invoked⟩

end Doubling

end ExprTree
