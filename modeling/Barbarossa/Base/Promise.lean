import Barbarossa.Base.Exec

/-!
# One-shot promises

The shared state of a promise and its future. The first value or exception offered
settles it for good; every later offer is refused and changes no result. The refused
offers are kept behind the first one, so that "never satisfied twice" is a bound on
the number of offers.
-/

namespace Barbarossa.Base

universe u

/-- A promise: the results offered to it, oldest first, and whether its future was taken. -/
structure Promise (ε α : Type u) where
  offers : List (Except ε α) := []
  retrieved : Bool := false

namespace Promise

variable {ε φ ω α : Type u}

/-- What the future yields: the first result offered. -/
def result (p : Promise ε α) : Option (Except ε α) := p.offers.head?

/-- A result is stored in the shared state. -/
def satisfied (p : Promise ε α) : Bool := !p.offers.isEmpty

/-- Offer a result; only the first one offered counts. -/
def offer (p : Promise ε α) (r : Except ε α) : Promise ε α := { p with offers := p.offers ++ [r] }

/-- Offer several results, the first one first. -/
def offerAll (p : Promise ε α) (rs : List (Except ε α)) : Promise ε α :=
  { p with offers := p.offers ++ rs }

/-- Satisfy the promise, or throw `refused` when it already is. -/
def setResult (refused : ε) (r : Except ε α) : Exec ε φ ω (Promise ε α) PUnit := fun p =>
  ⟨if p.satisfied then .thrown refused else .value ⟨⟩, p.offer r, []⟩

/-- Take the future, or throw `refused` when it was already taken. -/
def getFuture (refused : ε) : Exec ε φ ω (Promise ε α) PUnit := fun p =>
  ⟨if p.retrieved then .thrown refused else .value ⟨⟩, { p with retrieved := true }, []⟩

/-- An offer comes last. -/
@[simp] theorem offers_offer (p : Promise ε α) (r : Except ε α) :
    (p.offer r).offers = p.offers ++ [r] := rfl

/-- An offer does not take the future. -/
@[simp] theorem retrieved_offer (p : Promise ε α) (r : Except ε α) :
    (p.offer r).retrieved = p.retrieved := rfl

/-- An offer satisfies the promise. -/
@[simp] theorem satisfied_offer (p : Promise ε α) (r : Except ε α) :
    (p.offer r).satisfied = true := by
  simp [satisfied]

/-- Without an offer a promise stays the same. -/
@[simp] theorem offerAll_nil (p : Promise ε α) : p.offerAll [] = p := by
  simp [offerAll]

/-- A single offer is made as such. -/
@[simp] theorem offerAll_singleton (p : Promise ε α) (r : Except ε α) :
    p.offerAll [r] = p.offer r := rfl

/-- A promise is unsatisfied exactly when nothing was offered. -/
theorem satisfied_eq_false {p : Promise ε α} : p.satisfied = false ↔ p.offers = [] := by
  simp [satisfied]

/-- A promise is satisfied exactly when something was offered. -/
theorem satisfied_eq_true {p : Promise ε α} : p.satisfied = true ↔ p.offers ≠ [] := by
  simp [satisfied]

/-- Nothing is readable exactly while nothing was offered. -/
theorem result_eq_none {p : Promise ε α} : p.result = none ↔ p.offers = [] :=
  List.head?_eq_none_iff

/-- The first offer is the result. -/
theorem result_offer_of_unsatisfied {p : Promise ε α} {r : Except ε α} (h : p.satisfied = false) :
    (p.offer r).result = some r := by
  rw [result, offers_offer, satisfied_eq_false.mp h]
  rfl

/-- The result never changes once there is one. -/
theorem result_offer_of_satisfied {p : Promise ε α} {r r' : Except ε α}
    (h : p.result = some r) : (p.offer r').result = some r := by
  rw [result, offers_offer, List.head?_append]
  rw [result] at h
  rw [h]
  rfl

/-! ### Offers that are accepted -/

/-- A result stays when more is offered. -/
theorem result_of_offers_append {p p' : Promise ε α} {r : Except ε α} {rs : List (Except ε α)}
    (h : p.result = some r) (ho : p'.offers = p.offers ++ rs) : p'.result = some r := by
  rw [result] at h ⊢
  rw [ho, List.head?_append, h]
  rfl

/-- Whoever offers `rs` offers at most one result, and finds the promise unsatisfied. -/
structure Accepts (p : Promise ε α) (rs : List (Except ε α)) : Prop where
  single : rs.length ≤ 1
  unsatisfied : rs ≠ [] → p.offers = []

/-- Nothing is always accepted. -/
theorem accepts_nil (p : Promise ε α) : p.Accepts [] := ⟨Nat.zero_le 1, fun h => absurd rfl h⟩

/-- One result is accepted by an unsatisfied promise. -/
theorem accepts_singleton {p : Promise ε α} {r : Except ε α} (h : p.satisfied = false) :
    p.Accepts [r] := ⟨Nat.le_refl 1, fun _ => satisfied_eq_false.mp h⟩

/-- An accepted offer is the only one. -/
theorem Accepts.length_le {p : Promise ε α} {rs : List (Except ε α)} (ha : p.Accepts rs)
    (hp : p.offers.length ≤ 1) : (p.offers ++ rs).length ≤ 1 := by
  by_cases hrs : rs = []
  · simpa [hrs] using hp
  · rw [ha.unsatisfied hrs, List.nil_append]
    exact ha.single

/-- A promise that holds a result accepts nothing else. -/
theorem Accepts.eq_nil {p : Promise ε α} {rs : List (Except ε α)} (ha : p.Accepts rs)
    (hp : p.offers ≠ []) : rs = [] := by
  by_contra hrs
  exact hp (ha.unsatisfied hrs)

/-- The result of a promise that was offered one at most is its only offer. -/
theorem offers_of_result {p : Promise ε α} {r : Except ε α} (hp : p.offers.length ≤ 1)
    (hr : p.result = some r) : p.offers = [r] := by
  unfold result at hr
  cases ho : p.offers with
  | nil => simp [ho] at hr
  | cons x xs =>
    rw [ho] at hr hp
    obtain rfl := Option.some.inj hr
    rw [List.length_cons] at hp
    rw [List.length_eq_zero_iff.mp (show xs.length = 0 by omega)]

/-! ### The one call that waits for a promise -/

/-- A call that takes the future of a promise, the only one to do so: while it is `fresh` it has not
taken it, and when it is over it reports what the promise was offered once, or is excused. -/
structure Serves {β : Type u} (p : Promise ε α) (report : Except ε α → Except ε β)
    (excused : Except ε β → Prop) (fresh : Prop) (ended : Option (Except ε β)) : Prop where
  untaken : fresh → p.retrieved = false
  reported : ∀ r, ended = some r → (∃ x, p.offers = [x] ∧ r = report x) ∨ excused r

namespace Serves

variable {β : Type u} {p p' : Promise ε α} {report : Except ε α → Except ε β}
  {excused : Except ε β → Prop} {fresh : Prop} {ended : Option (Except ε β)}

/-- Accepted offers do not change what was reported. -/
theorem offers {rs : List (Except ε α)} (hs : p.Serves report excused fresh ended)
    (ha : p.Accepts rs) (hoffers : p'.offers = p.offers ++ rs)
    (hretrieved : p'.retrieved = p.retrieved) : p'.Serves report excused fresh ended := by
  refine ⟨fun hf => hretrieved.trans (hs.untaken hf), fun r hr => ?_⟩
  refine (hs.reported r hr).imp ?_ id
  rintro ⟨x, hx, rfl⟩
  refine ⟨x, ?_, rfl⟩
  rw [hoffers, ha.eq_nil (by simp [hx]), List.append_nil, hx]

end Serves

end Promise

end Barbarossa.Base
