import EventModel.Proofs.Store.Rebuilt
import EventModel.Proofs.Store.Operations

/-!
# Reading the relations of an object

What the accessors of an object return, in terms of its body.
-/

namespace EventModel.Store

variable {s : Store} {t : DataType} {k k' : ObjectKey} {body : Body t}

/-- An object that no longer exists leaves an empty place. -/
def placeOf (s : Store) (k : ObjectKey) : Option ObjectKey :=
  if s.existsObject k then some k else none

theorem bodyOf_of_body (hbody : s.body t k = .ok body) : s.bodyOf t (some k) = .ok (k, body) :=
  bind_eq_ok_iff.2 ⟨body, hbody, rfl⟩

theorem payload_eq_ok (hbody : s.body t k = .ok body) :
    s.payload t (some k) = .ok body.payload := by
  rw [Store.payload, bodyOf_of_body hbody]
  rfl

theorem members_eq_ok (hbody : s.body t k = .ok body) (m : Fin t.members.length) :
    s.members t (some k) m = .ok body.members[m] := by
  have hindex : checkIndex m.val t.members.length = .ok m := dif_pos m.isLt
  rw [Store.members, hindex, bodyOf_of_body hbody]
  rfl

theorem related_eq_map (hbody : s.body t k = .ok body) (r : Fin t.toMany.length) :
    s.related t (some k) r = (fun ks => ks.map s.placeOf) <$> s.links k body r := by
  have hindex : checkIndex r.val t.toMany.length = .ok r := dif_pos r.isLt
  rw [related, hindex, bodyOf_of_body hbody]
  change (s.links k body r >>= fun ks => pure (ks.map s.placeOf)) = _
  rcases s.links k body r with e | ks
  · rfl
  · rfl

theorem related_eq_error {r : Nat} (hr : ¬ r < t.toMany.length) :
    s.related t (some k) r = .error (.outOfRange r t.toMany.length) := by
  have hindex : checkIndex r t.toMany.length = .error (.outOfRange r t.toMany.length) :=
    dif_neg hr
  rw [related, hindex]
  rfl

theorem single_eq_ok (hbody : s.body t k = .ok body) (r : Fin t.toOne.length) :
    s.single t (some k) r = .ok (body.toOne[r].map s.placeOf) := by
  have hindex : checkIndex r.val t.toOne.length = .ok r := dif_pos r.isLt
  refine bind_eq_ok_iff.2 ⟨r, hindex, bind_eq_ok_iff.2 ⟨(k, body), bodyOf_of_body hbody, ?_⟩⟩
  dsimp only
  rcases body.toOne[r] with _ | k'
  · rfl
  · rfl

theorem single_eq_error {r : Nat} (hr : ¬ r < t.toOne.length) :
    s.single t (some k) r = .error (.outOfRange r t.toOne.length) := by
  have hindex : checkIndex r t.toOne.length = .error (.outOfRange r t.toOne.length) :=
    dif_neg hr
  rw [single, hindex]
  rfl

theorem placeOf_eq_some_iff : s.placeOf k = some k' ↔ k = k' ∧ s.existsObject k' = true := by
  unfold placeOf
  by_cases hexists : s.existsObject k = true
  · rw [if_pos hexists]
    constructor
    · intro h
      cases h
      exact ⟨rfl, hexists⟩
    · rintro ⟨rfl, -⟩
      rfl
  · rw [if_neg hexists]
    constructor
    · intro h
      cases h
    · rintro ⟨rfl, h⟩
      exact absurd h hexists

/-- Every object that an accessor returns exists. -/
theorem existsObject_of_related {target : Option ObjectKey} {r : Nat}
    {places : List (Option ObjectKey)} (h : s.related t target r = .ok places) :
    ∀ k, some k ∈ places → s.existsObject k = true := by
  intro k hk
  obtain ⟨i, -, h⟩ := bind_eq_ok_iff.1 h
  obtain ⟨⟨own, body⟩, -, h⟩ := bind_eq_ok_iff.1 h
  obtain ⟨ks, -, h⟩ := bind_eq_ok_iff.1 h
  cases h
  obtain ⟨k', -, hplace⟩ := List.mem_map.1 hk
  exact (placeOf_eq_some_iff.1 hplace).2

theorem existsObject_of_single {target : Option ObjectKey} {r : Nat}
    (h : s.single t target r = .ok (some (some k))) : s.existsObject k = true := by
  obtain ⟨i, -, h⟩ := bind_eq_ok_iff.1 h
  obtain ⟨⟨own, body⟩, -, h⟩ := bind_eq_ok_iff.1 h
  dsimp only at h
  split at h
  · cases h
  · rename_i k' _
    have hplace : s.placeOf k' = some k := Option.some.inj (Except.ok.inj h)
    exact (placeOf_eq_some_iff.1 hplace).2

end EventModel.Store
