import EventModel.Proofs.Store.Cache
import EventModel.Proofs.Store.Lifecycle
import EventModel.Proofs.Store.Tiles

/-!
# Readers of two stores

What is asked of an object is computed from its body, from what it leads to and from whether that
still exists. If two stores show the same of each object, then each reader gives the same answer in
both. One to-many relation of one object may be excepted, which is what a change of that relation
needs.
-/

namespace EventModel

/-- The number of links of a to-many relation, which is known before resolution. -/
def Body.count {t : DataType} (body : Body t) (r : Fin t.toMany.length) : Nat :=
  match body.toMany with
  | .lists lists => lists[r].length
  | .windows windows => windows[r].size

namespace Store

variable {s s' : Store} {k : ObjectKey} {t : DataType} {except : Option (ObjectKey × Nat)}

/-! ## What exists -/

theorem isInSubset_congr
    (hstorage : ∀ c, (s'.collections.get? c).map (·.storage) =
      (s.collections.get? c).map (·.storage))
    (k : ObjectKey) : s'.isInSubset k = s.isInSubset k := by
  -- the two directions are one argument with the stores exchanged
  have hforward : ∀ {s s' : Store}, (∀ c, (s'.collections.get? c).map (·.storage) =
      (s.collections.get? c).map (·.storage)) → s.isInSubset k = true → s'.isInSubset k = true := by
    intro s s' hstorage h
    rcases Arena.any_eq_true_iff.1 h with ⟨c, col, hcol, hk⟩
    have heq := hstorage c
    rw [hcol, Option.map_some] at heq
    rcases Option.map_eq_some_iff.1 heq with ⟨col', hcol', hsame⟩
    exact Arena.any_eq_true_iff.2 ⟨c, col', hcol', by rw [hsame]; exact hk⟩
  rw [Bool.eq_iff_iff]
  exact ⟨hforward fun c => (hstorage c).symm, hforward hstorage⟩

/-- An object exists as before if it belongs where it did and is pointed at as before. -/
theorem existsObject_congr (htracking : s'.tracking? k = s.tracking? k)
    (hhandles : s'.handles = s.handles)
    (hstorage : ∀ c, (s'.collections.get? c).map (·.storage) =
      (s.collections.get? c).map (·.storage)) : s'.existsObject k = s.existsObject k := by
  have hheld : s'.isHeld k = s.isHeld k := by rw [isHeld, isHeld, hhandles]
  have hsubset := isInSubset_congr hstorage k
  unfold tracking? at htracking
  unfold existsObject
  rw [hheld, hsubset]
  rcases ho : s.objects.get? k with _ | o
  · rw [ho, Option.map_none, Option.map_eq_none_iff] at htracking
    rw [htracking]
  · rw [ho, Option.map_some] at htracking
    rcases Option.map_eq_some_iff.1 htracking with ⟨o', ho', hsame⟩
    rw [ho']
    simp only [hsame]

/-- The columns of an object are those that its owner keeps. -/
theorem originOf_congr (htracking : s'.tracking? k = s.tracking? k)
    (horigin : ∀ c, (s'.collections.get? c).map (·.originAs t) =
      (s.collections.get? c).map (·.originAs t)) : s'.originOf t k = s.originOf t k := by
  unfold tracking? at htracking
  unfold originOf object
  rcases ho : s.objects.get? k with _ | o
  · rw [ho, Option.map_none, Option.map_eq_none_iff] at htracking
    rw [htracking]
    rfl
  · rw [ho, Option.map_some] at htracking
    rcases Option.map_eq_some_iff.1 htracking with ⟨o', ho', hsame⟩
    rw [ho']
    simp only [bind, Except.bind, Object.owner?, hsame]
    -- only an owned object has a collection in which to look for columns
    rcases o.tracking with n | ⟨c, i⟩ | _
    · rfl
    · have hcolumns := horigin c
      dsimp only
      unfold collection
      rcases hcol : s.collections.get? c with _ | col
      · rw [hcol, Option.map_none, Option.map_eq_none_iff] at hcolumns
        rw [hcolumns]
      · rw [hcol, Option.map_some] at hcolumns
        rcases Option.map_eq_some_iff.1 hcolumns with ⟨col', hcol', hsame'⟩
        rw [hcol']
        simp only [hsame']
    · rfl

/-! ## Bodies -/

/-- Objects of one type under one key are read side by side. -/
theorem parallel_body {R : ∀ {u : DataType}, Body u → Body u → Prop} {tracking : Tracking}
    {body body' : Body t} (ho : s.objects.get? k = some ⟨t, tracking, body⟩)
    (ho' : s'.objects.get? k = some ⟨t, tracking, body'⟩)
    (hR : tracking ≠ .released → R body body') (u : DataType) :
    Parallel R (s.body u k) (s'.body u k) := by
  simp only [Store.body, object_eq_ok_iff.2 ho, object_eq_ok_iff.2 ho', bind, Except.bind]
  by_cases hreleased : tracking = .released
  · subst hreleased
    exact .error _
  · by_cases htype : t = u
    · subst htype
      simp only [Object.isReleased, beq_iff_eq, hreleased, ↓reduceIte, Object.bodyAs, ↓reduceDIte]
      exact .ok (hR hreleased)
    · simp only [Object.isReleased, beq_iff_eq, hreleased, ↓reduceIte, Object.bodyAs, htype,
        ↓reduceDIte]
      exact .error _

/-- Links that can be followed are as many as the body shows. -/
theorem count_of_links {body : Body t} {r : Fin t.toMany.length} {ks : List ObjectKey}
    (h : s.links k body r = .ok ks) : body.count r = ks.length := by
  unfold links at h
  unfold Body.count
  rcases hmany : body.toMany with lists | windows
  · simp only [hmany] at h ⊢
    rw [Except.ok.inj h]
  · simp only [hmany] at h ⊢
    rcases bind_eq_ok_iff.1 h with ⟨⟨id, columns⟩, -, h⟩
    rcases columns with ⟨many, one⟩ | many
    · cases h
    · rcases Window.slice_eq_ok_iff.1 h with ⟨hfits, rfl⟩
      exact (Window.length_segment hfits).symm

/-- The same is read of the bodies of an object, apart from the relation that is excepted. -/
structure ShowsSame (s s' : Store) (except : Option (ObjectKey × Nat)) (k : ObjectKey)
    (body body' : Body t) : Prop where
  payload : body'.payload = body.payload
  toOne : body'.toOne = body.toOne
  members : body'.members = body.members
  links : ∀ r, except ≠ some (k, r.val) → s'.links k body' r = s.links k body r
  count : ∀ r, except ≠ some (k, r.val) → body'.count r = body.count r

/-- Links that are the same are as many. -/
theorem ShowsSame.of_links {body body' : Body t} {lists : Vector (List ObjectKey) t.toMany.length}
    (hpayload : body'.payload = body.payload) (htoOne : body'.toOne = body.toOne)
    (hmembers : body'.members = body.members)
    (hlinks : ∀ r, except ≠ some (k, r.val) → s.links k body r = .ok lists[r])
    (hlinks' : ∀ r, except ≠ some (k, r.val) → s'.links k body' r = .ok lists[r]) :
    ShowsSame s s' except k body body' where
  payload := hpayload
  toOne := htoOne
  members := hmembers
  links r hr := by rw [hlinks r hr, hlinks' r hr]
  count r hr := by rw [count_of_links (hlinks r hr), count_of_links (hlinks' r hr)]

theorem ShowsSame.refl (horigin : s'.originOf t k = s.originOf t k) (body : Body t) :
    ShowsSame s s' except k body body where
  payload := rfl
  toOne := rfl
  members := rfl
  links r _ := links_congr horigin body r
  count _ _ := rfl

/-! ## Readers -/

/-- Every reader of objects gives the same answer, apart from the relation that is excepted. -/
structure ReadsSame (except : Option (ObjectKey × Nat)) (s s' : Store) : Prop where
  existsObject : s'.existsObject = s.existsObject
  payload : s'.payload = s.payload
  members : s'.members = s.members
  single : s'.single = s.single
  related : ∀ t k r, except ≠ some (k, r) → s'.related t (some k) r = s.related t (some k) r
  relatedSize : ∀ t k r, except ≠ some (k, r) →
    s'.relatedSize t (some k) r = s.relatedSize t (some k) r

/-- The stores show the same of each object and agree on which objects exist. -/
structure BodiesShowSame (except : Option (ObjectKey × Nat)) (s s' : Store) : Prop where
  existsObject : s'.existsObject = s.existsObject
  bodies : ∀ k t, Parallel (ShowsSame s s' except k (t := t)) (s.body t k) (s'.body t k)

namespace BodiesShowSame

theorem bodyOf (h : BodiesShowSame except s s') (t : DataType) (target : Option ObjectKey) :
    Parallel (fun x x' => x'.1 = x.1 ∧ some x.1 = target ∧ ShowsSame s s' except x.1 x.2 x'.2)
      (s.bodyOf t target) (s'.bodyOf t target) := by
  rcases target with _ | k
  · exact .error _
  · exact (h.bodies k t).bind fun _ _ hbody => .ok ⟨rfl, rfl, hbody⟩

theorem readsSame (h : BodiesShowSame except s s') : ReadsSame except s s' where
  existsObject := h.existsObject
  payload := by
    funext t target
    refine ((h.bodyOf t target).bind_eq fun x x' hx => ?_).symm
    rw [hx.2.2.payload]
  members := by
    funext t target member
    unfold Store.members
    rcases checkIndex member t.members.length with e | m
    · rfl
    · refine ((h.bodyOf t target).bind_eq fun x x' hx => ?_).symm
      rw [hx.2.2.members]
  single := by
    funext t target relation
    unfold Store.single
    rcases checkIndex relation t.toOne.length with e | r
    · rfl
    · refine ((h.bodyOf t target).bind_eq fun x x' hx => ?_).symm
      simp only [hx.2.2.toOne, h.existsObject]
  related t k relation hexcept := by
    unfold Store.related
    rcases hindex : checkIndex relation t.toMany.length with e | r
    · rfl
    · cases checkIndex_eq_ok hindex
      refine ((h.bodyOf t (some k)).bind_eq fun x x' hx => ?_).symm
      rcases hx with ⟨heq, hkey, hbody⟩
      cases hkey
      simp only [heq, hbody.links r hexcept, h.existsObject]
  relatedSize t k relation hexcept := by
    unfold Store.relatedSize
    rcases hindex : checkIndex relation t.toMany.length with e | r
    · rfl
    · cases checkIndex_eq_ok hindex
      refine ((h.bodyOf t (some k)).bind_eq fun x x' hx => ?_).symm
      rcases hx with ⟨-, hkey, hbody⟩
      cases hkey
      -- `relatedSize` never fails once it has the body, so it is `count` under `pure`
      have hcount : ∀ body : Body t, (match body.toMany with
          | .lists lists => pure lists[r].length
          | .windows windows => pure windows[r].size : Except Error Nat) = pure (body.count r) := by
        intro body
        unfold Body.count
        split <;> rfl
      calc
        _ = (pure (x.2.count r) : Except Error Nat) := hcount x.2
        _ = pure (x'.2.count r) := by rw [hbody.count r hexcept]
        _ = _ := (hcount x'.2).symm

end BodiesShowSame

end Store
end EventModel
