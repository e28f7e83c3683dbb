import Mathlib.Data.Set.Basic
import EventModel.Proofs.Store.Construction
import EventModel.Proofs.Store.Resolution
import EventModel.Proofs.Store.Runs

/-!
# Which collections an operation touches

A collection counts its changes and those of its objects. `Act` lists every operation with the
collections that it touches, which count a change or are gone afterwards, and with those whose
buffers it prepares. Whatever was there before and is not touched is left exactly as it is, but for
its prepared buffers (`Act.touches_or_prepares`).

A collection is also touched by an edit that fails when the object is already open for writing: the
relations of a rebuilt object cannot be copied before they are resolved.
-/

namespace EventModel.Store

variable {s s' s₁ s₂ : Store} {α β : Type} {t : DataType} {c d : CollectionKey}
  {touched touched' prepared prepared' : Set CollectionKey}

/-! ## Collections that count a change -/

/-- Between two stores the touched collections have counted a change, unless they are gone, and all
others that were there before are the same. -/
structure Touches (s s' : Store) (touched : Set CollectionKey) : Prop where
  next : s.collections.next ≤ s'.collections.next
  same : ∀ d, d < s.collections.next → d ∉ touched →
    s'.collections.get? d = s.collections.get? d
  later : ∀ d, d < s.collections.next → d ∈ touched → ∀ col', s'.collections.get? d = some col' →
    ∃ col, s.collections.get? d = some col ∧ col.generation < col'.generation ∧
      (col'.prepared = none ∨ col'.prepared = col.prepared)

namespace Touches

theorem of_eq (h : s'.collections = s.collections) : Touches s s' ∅ where
  next := by rw [h]
  same d _ _ := by rw [h]
  later d _ hd := absurd hd (Set.notMem_empty d)

theorem of_insert {col : Collection} (h : s'.collections = s.collections.insert col) :
    Touches s s' ∅ where
  next := by simp [h]
  same d hlt _ := by rw [h, Arena.get?_insert, if_neg (Nat.ne_of_lt hlt)]
  later d _ hd := absurd hd (Set.notMem_empty d)

theorem of_modify {f : Collection → Collection} (h : s'.collections = s.collections.modify c f)
    (hf : ∀ col, s.collections.get? c = some col → col.generation < (f col).generation ∧
      ((f col).prepared = none ∨ (f col).prepared = col.prepared)) : Touches s s' {c} where
  next := by simp [h]
  same d _ hd := by rw [h, Arena.get?_modify_ne (Ne.symm hd)]
  later d _ hd col' hcol' := by
    cases hd
    rw [h] at hcol'
    rcases Arena.get?_modify_eq_some hcol' with ⟨-, col, hcol, rfl⟩ | ⟨hne, -⟩
    · exact ⟨col, hcol, hf col hcol⟩
    · exact absurd rfl hne

theorem of_erase (h : s'.collections = s.collections.erase c) : Touches s s' {c} where
  next := by simp [h]
  same d _ hd := by rw [h, Arena.get?_erase, if_neg (Ne.symm hd)]
  later d _ hd col' hcol' := by
    cases hd
    rw [h, Arena.get?_erase, if_pos rfl] at hcol'
    cases hcol'

/-- The sets need to agree on collections that were there before only. -/
theorem congr (h : Touches s s' touched)
    (hiff : ∀ d, d < s.collections.next → (d ∈ touched' ↔ d ∈ touched)) :
    Touches s s' touched' where
  next := h.next
  same d hlt hd := h.same d hlt fun hmem => hd ((hiff d hlt).2 hmem)
  later d hlt hd := h.later d hlt ((hiff d hlt).1 hd)

theorem refl (s : Store) : Touches s s ∅ := .of_eq rfl

theorem trans (h : Touches s s₁ touched) (h' : Touches s₁ s' touched') :
    Touches s s' (touched ∪ touched') where
  next := Nat.le_trans h.next h'.next
  same d hlt hd := by
    rw [Set.mem_union, not_or] at hd
    rw [h'.same d (Nat.lt_of_lt_of_le hlt h.next) hd.2, h.same d hlt hd.1]
  later d hlt hd col' hcol' := by
    have hlt₁ := Nat.lt_of_lt_of_le hlt h.next
    -- a collection that only one of the two steps touches stays as it is in the other
    by_cases hd' : d ∈ touched'
    · obtain ⟨col₁, hcol₁, hgeneration, hprepared⟩ := h'.later d hlt₁ hd' col' hcol'
      by_cases hd : d ∈ touched
      · obtain ⟨col, hcol, hgeneration₁, hprepared₁⟩ := h.later d hlt hd col₁ hcol₁
        refine ⟨col, hcol, Nat.lt_trans hgeneration₁ hgeneration, ?_⟩
        rcases hprepared with hnone | heq
        · exact .inl hnone
        · rwa [heq]
      · rw [h.same d hlt hd] at hcol₁
        exact ⟨col₁, hcol₁, hgeneration, hprepared⟩
    · rw [h'.same d hlt₁ hd'] at hcol'
      exact h.later d hlt (hd.resolve_right hd') col' hcol'

/-- Collections that are made on the way were not there before. -/
theorem trans_of_fresh (h : Touches s s₁ touched) (h' : Touches s₁ s' touched')
    (hfresh : ∀ d ∈ touched', s.collections.next ≤ d) : Touches s s' touched :=
  (h.trans h').congr fun d hlt => by
    refine ⟨Or.inl, fun hd => hd.resolve_right fun hd' => ?_⟩
    exact Nat.not_le.2 hlt (hfresh d hd')

end Touches

/-! ## Collections whose buffers are prepared -/

/-- Between two stores no collection counts a change, buffers that are current are kept, and only
buffers of the prepared collections are new. -/
structure Prepares (s s' : Store) (prepared : Set CollectionKey) : Prop where
  next : s'.collections.next = s.collections.next
  generation : ∀ d, s'.generation? d = s.generation? d
  kept : ∀ d col p, s.collections.get? d = some col → col.prepared = some p →
    s.isCurrent p = true → s'.collections.get? d = some col
  old : ∀ d, d ∉ prepared → ∀ col' p, s'.collections.get? d = some col' →
    col'.prepared = some p → ∃ col, s.collections.get? d = some col ∧ col.prepared = some p

namespace Prepares

theorem refl (s : Store) (prepared : Set CollectionKey) : Prepares s s prepared where
  next := rfl
  generation _ := rfl
  kept _ _ _ hcol _ _ := hcol
  old _ _ col' _ hcol' hp := ⟨col', hcol', hp⟩

theorem mono (h : Prepares s s' prepared) (hsubset : ∀ d ∈ prepared, d ∈ prepared') :
    Prepares s s' prepared' where
  next := h.next
  generation := h.generation
  kept := h.kept
  old d hd := h.old d fun hmem => hd (hsubset d hmem)

theorem isCurrent (h : Prepares s s' prepared) (p : Prepared) : s'.isCurrent p = s.isCurrent p := by
  unfold Store.isCurrent
  simp only [h.generation]

theorem trans (h : Prepares s s₁ prepared) (h' : Prepares s₁ s' prepared') :
    Prepares s s' (prepared ∪ prepared') where
  next := h'.next.trans h.next
  generation d := (h'.generation d).trans (h.generation d)
  kept d col p hcol hp hcurrent :=
    h'.kept d col p (h.kept d col p hcol hp hcurrent) hp ((h.isCurrent p).trans hcurrent)
  old d hd col' p hcol' hp := by
    rw [Set.mem_union, not_or] at hd
    obtain ⟨col₁, hcol₁, hp₁⟩ := h'.old d hd.2 col' p hcol' hp
    exact h.old d hd.1 col₁ p hcol₁ hp₁

/-- Buffers of one collection that has no current ones are kept or thrown away. -/
theorem of_modify {buffers : Option Prepared}
    (h : s'.collections = s.collections.modify c fun col => { col with prepared := buffers })
    (hstale : ∀ col p, s.collections.get? c = some col → col.prepared = some p →
      s.isCurrent p = false)
    (hold : c ∈ prepared ∨ buffers = none) : Prepares s s' prepared where
  next := by simp [h]
  generation d := by
    unfold generation?
    rw [h, Arena.get?_modify]
    split
    · cases s.collections.get? d <;> rfl
    · rfl
  kept d col p hcol hp hcurrent := by
    have hne : c ≠ d := by
      rintro rfl
      rw [hstale col p hcol hp] at hcurrent
      cases hcurrent
    rw [h, Arena.get?_modify_ne hne, hcol]
  old d hd col' p hcol' hp := by
    rw [h] at hcol'
    rcases Arena.get?_modify_eq_some hcol' with ⟨rfl, col, -, rfl⟩ | ⟨-, hcol⟩
    · rcases hold with hmem | rfl
      · exact absurd hmem hd
      · cases hp
    · exact ⟨col', hcol, hp⟩

end Prepares

/-- The operation succeeds. -/
def Succeeds (a : Action α) (s : Store) : Prop :=
  ∃ x, (a s).1 = .ok x

theorem succeeds_of_eq {a : Action α} {x : α} (h : a s = (.ok x, s')) : Succeeds a s :=
  ⟨x, by rw [h]⟩

theorem not_succeeds_of_eq {a : Action α} {e : Error} (h : a s = (.error e, s')) :
    ¬ Succeeds a s := by
  rintro ⟨x, hx⟩
  rw [h] at hx
  cases hx

/-! ## Operations that leave the collections alone -/

/-- The operation changes no collection, whether it succeeds or fails. -/
def LeavesCollections (a : Action α) : Prop :=
  ∀ s, (a s).2.collections = s.collections

namespace LeavesCollections

theorem touches {a : Action α} (h : LeavesCollections a) (s : Store) : Touches s (a s).2 ∅ :=
  .of_eq (h s)

theorem pure (x : α) : LeavesCollections (Pure.pure x : Action α) := fun _ => rfl

theorem get : LeavesCollections (MonadState.get : Action Store) := fun _ => rfl

theorem ask (x : Except Error α) : LeavesCollections (liftM x : Action α) := fun s => by
  rw [ask_apply]

theorem bind {a : Action α} {f : α → Action β} (ha : LeavesCollections a)
    (hf : ∀ x, LeavesCollections (f x)) : LeavesCollections (a >>= f) := by
  intro s
  refine bind_induct (P := fun s' => s'.collections = s.collections) (ha s) ?_
  intro x s' _ hs'
  rw [hf x s', hs']

theorem get_bind {f : Store → Action α} (hf : ∀ s, LeavesCollections (f s)) :
    LeavesCollections (MonadState.get >>= f) :=
  get.bind hf

theorem ask_bind {x : Except Error α} {f : α → Action β} (hf : ∀ y, LeavesCollections (f y)) :
    LeavesCollections (liftM x >>= f) :=
  (ask x).bind hf

theorem refer (target : Option ObjectKey) : LeavesCollections (refer target) := fun s => by
  rw [refer_apply, withHandle_collections]

theorem handleTo (t : DataType) (target : Option ObjectKey) :
    LeavesCollections (handleTo t target) :=
  (refer target).bind fun _ => pure _

theorem mutableHandleTo (t : DataType) (target : Option ObjectKey) :
    LeavesCollections (mutableHandleTo t target) :=
  (handleTo t target).bind fun _ => pure _

theorem newObject (t : DataType) (payload : t.payload.Value) :
    LeavesCollections (newObject t payload) := fun s => by
  change (s.withNewObject t payload).collections = _
  rw [withNewObject, withHandle_collections]

theorem downcast (t : DataType) (r : Reference) : LeavesCollections (downcast t r) :=
  get_bind fun _ => get_bind fun _ => ask_bind fun _ => handleTo t _

theorem downcastMutable (t : DataType) (r : Reference) : LeavesCollections (downcastMutable t r) :=
  get_bind fun _ => get_bind fun _ => ask_bind fun _ => mutableHandleTo t _

theorem unlink (r : Reference) : LeavesCollections (unlink r) := fun s => by
  rw [unlink_apply]
  split <;> rfl

theorem drop (r : Reference) : LeavesCollections (drop r) :=
  (unlink r).bind fun _ _ => rfl

theorem referAll (places : List (Option ObjectKey)) : LeavesCollections (referAll places) := by
  induction places with
  | nil => exact pure _
  | cons place rest ih => exact (refer place).bind fun _ => ih.bind fun _ => pure _

theorem dropAll (references : List Reference) : LeavesCollections (dropAll references) := by
  induction references with
  | nil => exact pure _
  | cons r rest ih => exact (drop r).bind fun _ => ih

theorem thenDrop {a : Action α} (h : LeavesCollections a) (temporaries : List Reference) :
    LeavesCollections (thenDrop temporaries a) := fun s =>
  (dropAll temporaries (a s).2).trans (h s)

theorem dropOnFailure {a : Action α} (h : LeavesCollections a) (r : Reference) :
    LeavesCollections (dropOnFailure r a) := by
  intro s
  have hs := h s
  unfold Store.dropOnFailure
  rcases hrun : a s with ⟨e | x, s'⟩
  · rw [hrun] at hs
    exact (drop r s').trans hs
  · rw [hrun] at hs
    exact hs

theorem downcastAll (t : DataType) (references : List Reference) :
    LeavesCollections (downcastAll t references) := by
  induction references with
  | nil => exact pure _
  | cons r rest ih =>
    exact (downcast t r).bind fun h => (ih.bind fun _ => pure _).dropOnFailure h.toReference

theorem relatedReferences (handle : Handle t) (relation : Nat) :
    LeavesCollections (relatedReferences handle relation) :=
  get_bind fun _ => ask_bind fun _ => referAll _

theorem relatedHandles (u : DataType) (handle : Handle t) (relation : Nat) :
    LeavesCollections (relatedHandles u handle relation) :=
  (relatedReferences handle relation).bind fun _ => (downcastAll u _).thenDrop _

theorem singleReference (handle : Handle t) (relation : Nat) :
    LeavesCollections (singleReference handle relation) := by
  refine get_bind fun _ => ask_bind fun place => ?_
  rcases place with _ | place
  · exact pure _
  · exact (refer place).bind fun _ => pure _

theorem singleHandle (u : DataType) (handle : Handle t) (relation : Nat) :
    LeavesCollections (singleHandle u handle relation) := by
  refine (singleReference handle relation).bind fun found => ?_
  rcases found with _ | r
  · exact pure _
  · refine thenDrop (fun s => ?_) [r]
    have hs := downcast u r s
    rw [map_apply]
    rcases hrun : Store.downcast u r s with ⟨e | h, s'⟩ <;> rwa [hrun] at hs

theorem take (t : DataType) (f : FrameKey) (name : String) : LeavesCollections (take t f name) := by
  refine get_bind fun _ => ask_bind fun frame => ?_
  rcases frame.find? name with _ | ⟨position, c⟩
  · exact pure _
  · exact get_bind fun _ => ask_bind fun _ _ => rfl

end LeavesCollections

/-! ## Edits -/

/-- The collection that owns the object behind a handle. -/
def ownerBehind (s : Store) (handle : MutableHandle t) : Option CollectionKey :=
  (s.target handle.toReference).bind s.ownerOf?

/-- The owner of the object behind a handle, if an edit counts. -/
def editing (s : Store) (handle : MutableHandle t) (counts : Prop) : Set CollectionKey :=
  { d | s.ownerBehind handle = some d ∧ counts }

/-- The object behind the handle can be written, but gets no relations of its own: those it was
rebuilt with cannot be copied. -/
def DeniesLists (s : Store) (handle : MutableHandle t) : Prop :=
  ∃ k body e, s.bodyOf t (s.target handle.toReference) = .ok (k, body) ∧
    s.ownLists k body = .error e

instance (s : Store) (handle : MutableHandle t) : Decidable (s.DeniesLists handle) :=
  decidable_of_iff
    ((match s.bodyOf t (s.target handle.toReference) with
      | .ok (k, body) => !(s.ownLists k body).isOk
      | .error _ => false) = true) <| by
    unfold DeniesLists
    rcases s.bodyOf t (s.target handle.toReference) with e | ⟨k, body⟩
    · simp
    · dsimp only
      rcases hlists : s.ownLists k body with e | lists
      · exact iff_of_true rfl ⟨k, body, e, rfl, hlists⟩
      · refine iff_of_false Bool.false_ne_true ?_
        rintro ⟨k', body', e, heq, hdenied⟩
        cases heq
        rw [hlists] at hdenied
        cases hdenied

/-- The type has the to-many relation, and the reference leads to an object that it may lead to. -/
def AdmitsTarget (s : Store) (t : DataType) (relation : Nat) (target : Reference) : Prop :=
  ∃ r : Fin t.toMany.length, r.val = relation ∧
    ∃ k, s.checkTarget (s.target target) (t.toMany.get r).target = .ok k

theorem touches_of_advanceOwner {k : ObjectKey}
    (h : s'.collections = (s.advanceOwner k).collections) :
    Touches s s' { d | s.ownerOf? k = some d } := by
  unfold advanceOwner at h
  unfold ownerOf?
  rcases howner : (s.objects.get? k).bind Object.owner? with _ | c
  · rw [howner] at h
    exact (Touches.of_eq h).congr fun d _ => by simp
  · rw [howner] at h
    refine (Touches.of_modify (c := c) h fun col _ => ⟨Nat.lt_succ_self _, .inr rfl⟩).congr ?_
    intro d _
    rw [Set.mem_ofPred_eq, Set.mem_singleton_iff, Option.some.injEq, eq_comm]

theorem touches_edit (handle : MutableHandle t)
    (f : Store → ObjectKey → Body t → Except Error (Body t)) (s : Store) :
    Touches s (edit handle f s).2 (s.editing handle (Succeeds (edit handle f) s ∨
      ∃ k body e, s.bodyOf t (s.target handle.toReference) = .ok (k, body) ∧
        f s k body = .error e)) := by
  rcases hbody : s.bodyOf t (s.target handle.toReference) with e | ⟨k, body⟩
  · have hrun : edit handle f s = (.error e, s) := by rw [edit, hbody]
    rw [hrun]
    refine (Touches.refl s).congr fun d _ => iff_of_false ?_ (Set.notMem_empty d)
    rintro ⟨-, hok | ⟨k, body, e', hbody', -⟩⟩
    · exact not_succeeds_of_eq hrun hok
    · cases hbody'
  · obtain ⟨htarget, -⟩ := bodyOf_eq_ok hbody
    -- from here on the edit counts, whatever becomes of it
    have hcounts : Succeeds (edit handle f) s ∨ ∃ k' body' e,
        (Except.ok (k, body) : Except Error (ObjectKey × Body t)) = .ok (k', body') ∧
          f s k' body' = .error e := by
      rcases hnew : f s k body with e | new
      · exact .inr ⟨k, body, e, rfl, hnew⟩
      · refine .inl ⟨(), ?_⟩
        simp only [edit, hbody, hnew]
    have hcollections : (edit handle f s).2.collections = (s.advanceOwner k).collections := by
      rcases hnew : f s k body with e | new <;> simp only [edit, hbody, hnew, setBody_collections]
    refine (touches_of_advanceOwner hcollections).congr fun d _ => ?_
    rw [editing, Set.mem_ofPred_eq, and_iff_left hcounts, ownerBehind, htarget]
    rfl

/-- An edit fails only before it counts, if the new body can always be computed. -/
theorem touches_edit_of_total (handle : MutableHandle t) (g : Body t → Body t) (s : Store) :
    Touches s (edit handle (fun _ _ body => .ok (g body)) s).2
      (s.editing handle (Succeeds (edit handle fun _ _ body => .ok (g body)) s)) := by
  refine (touches_edit handle _ s).congr fun d _ => ?_
  simp [editing]

/-- An edit that is refused by a check of its arguments touches nothing. -/
theorem touches_ask_bind {handle : MutableHandle t} {x : Except Error α} {f : α → Action Unit}
    {opens : Prop} (hrefused : ∀ e, x = .error e → ¬ opens)
    (hf : ∀ y, x = .ok y → Touches s (f y s).2 (s.editing handle (Succeeds (f y) s ∨ opens))) :
    Touches s ((liftM x >>= f) s).2
      (s.editing handle (Succeeds (liftM x >>= f : Action Unit) s ∨ opens)) := by
  rcases hx : x with e | y
  · refine (Touches.refl s).congr fun d _ => iff_of_false ?_ (Set.notMem_empty d)
    rintro ⟨-, ⟨y, hy⟩ | hopens⟩
    · cases hy
    · exact hrefused e hx hopens
  · exact hf y hx

theorem touches_updatePayload (handle : MutableHandle t)
    (f : t.payload.Value → t.payload.Value) (s : Store) :
    Touches s (updatePayload handle f s).2
      (s.editing handle (Succeeds (updatePayload handle f) s)) :=
  touches_edit_of_total handle _ s

theorem le_of_checkIndex_eq_error {index n : Nat} {e : Error} (h : checkIndex index n = .error e) :
    n ≤ index := by
  unfold checkIndex at h
  split at h
  · cases h
  · exact Nat.le_of_not_lt ‹_›

/-- The edits that copy the relations of their object first fail when these cannot be copied. -/
theorem touches_edit_lists (handle : MutableHandle t)
    (g : Body t → Vector (List ObjectKey) t.toMany.length → Body t) (s : Store) {opens : Prop}
    (hopens : opens ↔ s.DeniesLists handle) :
    Touches s (edit handle (fun s own body => do return g body (← s.ownLists own body)) s).2
      (s.editing handle (Succeeds (edit handle fun s own body => do
        return g body (← s.ownLists own body)) s ∨ opens)) := by
  refine (touches_edit handle _ s).congr fun d _ => and_congr_right fun _ => or_congr_right ?_
  rw [hopens]
  refine exists_congr fun k => exists_congr fun body => exists_congr fun e =>
    and_congr_right fun _ => ?_
  rcases s.ownLists k body with e' | lists
  · constructor <;> rintro ⟨⟩ <;> rfl
  · exact iff_of_false nofun nofun

theorem touches_clearRelated (handle : MutableHandle t) (relation : Nat) (s : Store) :
    Touches s (clearRelated handle relation s).2
      (s.editing handle (Succeeds (clearRelated handle relation) s ∨
        relation < t.toMany.length ∧ s.DeniesLists handle)) := by
  refine touches_ask_bind ?_ fun r hr => ?_
  · rintro e he ⟨hlt, -⟩
    exact Nat.not_le.2 hlt (le_of_checkIndex_eq_error he)
  · have hlt : relation < t.toMany.length := checkIndex_eq_ok hr ▸ r.isLt
    exact touches_edit_lists handle (fun body lists => { body with toMany := .lists (setAt lists r []) })
      s (and_iff_right hlt)

theorem touches_addRelated (handle : MutableHandle t) (relation : Nat) (target : Reference)
    (s : Store) :
    Touches s (addRelated handle relation target s).2
      (s.editing handle (Succeeds (addRelated handle relation target) s ∨
        s.AdmitsTarget t relation target ∧ s.DeniesLists handle)) := by
  refine touches_ask_bind ?_ fun r hr => ?_
  · rintro e he ⟨⟨r, rfl, -⟩, -⟩
    exact Nat.not_le.2 r.isLt (le_of_checkIndex_eq_error he)
  · -- both checks look at the store before the edit
    refine touches_ask_bind (x := s.checkTarget (s.target target) (t.toMany.get r).target) ?_
      fun k hk => ?_
    · rintro e he ⟨⟨r', hr', k, hk⟩, -⟩
      obtain rfl : r' = r := Fin.ext (hr'.trans (checkIndex_eq_ok hr).symm)
      rw [he] at hk
      cases hk
    · exact touches_edit_lists handle
        (fun body lists => { body with toMany := .lists (setAt lists r (lists[r] ++ [k])) })
        s (and_iff_right ⟨r, checkIndex_eq_ok hr, k, hk⟩)

/-- An edit after checks that can all be made before the object is opened. -/
theorem Touches.of_checked {handle : MutableHandle t} {a : Action Unit}
    (h : Touches s (a s).2 (s.editing handle (Succeeds a s ∨ False))) :
    Touches s (a s).2 (s.editing handle (Succeeds a s)) :=
  h.congr fun d _ => by rw [or_false]

theorem touches_setSingle (handle : MutableHandle t) (relation : Nat) (target : Reference)
    (s : Store) :
    Touches s (setSingle handle relation target s).2
      (s.editing handle (Succeeds (setSingle handle relation target) s)) := by
  rcases setSingle_cases handle relation target s
    with ⟨e, hrun⟩ | ⟨r, k, body, -, htarget, -, -, hrun⟩
  · rw [hrun]
    refine (Touches.refl s).congr fun d _ => iff_of_false ?_ (Set.notMem_empty d)
    exact fun hd => not_succeeds_of_eq hrun hd.2
  · rw [hrun]
    refine (touches_of_advanceOwner (k := k) (setBody_collections ..)).congr fun d _ => ?_
    rw [editing, Set.mem_ofPred_eq, and_iff_left (succeeds_of_eq hrun), ownerBehind, htarget]
    rfl

theorem touches_pushMember (handle : MutableHandle t) (member : Nat) (value : t.element.Value)
    (s : Store) :
    Touches s (pushMember handle member value s).2
      (s.editing handle (Succeeds (pushMember handle member value) s)) :=
  .of_checked (touches_ask_bind (fun _ _ => id) fun m _ =>
    (touches_edit_of_total handle _ s).congr fun d _ => by rw [or_false])

theorem touches_setMembers (handle : MutableHandle t) (member : Nat)
    (values : List t.element.Value) (s : Store) :
    Touches s (setMembers handle member values s).2
      (s.editing handle (Succeeds (setMembers handle member values) s)) :=
  .of_checked (touches_ask_bind (fun _ _ => id) fun m _ =>
    (touches_edit_of_total handle _ s).congr fun d _ => by rw [or_false])

/-! ## Operations on collections -/

/-- A change that depends on a condition touches its collection if the condition holds. -/
theorem Touches.of_cases {p : Prop} (hpos : p → Touches s s' {c}) (hneg : ¬ p → s' = s) :
    Touches s s' { d | d = c ∧ p } := by
  by_cases hp : p
  · exact (hpos hp).congr fun d _ => and_iff_left hp
  · rw [hneg hp]
    exact (Touches.refl s).congr fun d _ => iff_of_false (fun hd => hp hd.2) (Set.notMem_empty d)

theorem Touches.of_get?_eq_none (h : s.collections.get? c = none) : Touches s s {c} :=
  .of_erase (Arena.erase_of_get?_eq_none h).symm

theorem touches_withReset (col : Collection) (subset : Bool) (c : CollectionKey) (s : Store) :
    Touches s (s.withReset c col subset) {c} :=
  .of_modify (by rw [withReset, modifyCollection_collections, releaseAll_collections])
    fun _ _ => ⟨Nat.lt_succ_self _, .inl rfl⟩

theorem touches_clear (c : CollectionKey) (s : Store) : Touches s (clear c s).2 {c} := by
  rcases hcol : s.collections.get? c with _ | col
  · rw [clear_apply_of_none hcol]
    exact .of_get?_eq_none hcol
  · rw [clear_apply hcol]
    exact touches_withReset col _ c s

theorem touches_withoutCollection (c : CollectionKey) (s : Store) :
    Touches s (s.withoutCollection c) {c} := by
  unfold withoutCollection
  rcases hcol : s.collections.get? c with _ | col
  · exact .of_get?_eq_none hcol
  · rw [← Set.union_self {c}]
    exact (touches_withReset col _ c s).trans (.of_erase rfl)

theorem touches_discard (c : CollectionKey) (s : Store) : Touches s (discard c s).2 {c} := by
  rw [discard_apply]
  exact touches_withoutCollection c s

theorem touches_discardAll (cs : List CollectionKey) (s : Store) :
    Touches s (cs.foldl withoutCollection s) { d | d ∈ cs } := by
  induction cs generalizing s with
  | nil => exact (Touches.refl s).congr fun d _ => by simp
  | cons c cs ih =>
    refine ((touches_withoutCollection c s).trans (ih _)).congr fun d _ => ?_
    rw [Set.mem_ofPred_eq, List.mem_cons]
    rfl

theorem touches_setCollectionId (c : CollectionKey) (id : CollectionId) (s : Store) :
    Touches s (setCollectionId c id s).2 {c} :=
  .of_modify rfl fun _ _ => ⟨Nat.lt_succ_self _, .inl rfl⟩

/-- The collection has the other mode, and is empty so that it can be switched. -/
def CanSwitch (s : Store) (c : CollectionKey) (subset : Bool) : Prop :=
  ∃ col, s.collections.get? c = some col ∧ subset ≠ col.isSubset ∧ col.isEmpty = true

theorem touches_setSubset (c : CollectionKey) (subset : Bool) (s : Store) :
    Touches s (setSubset c subset s).2 { d | d = c ∧ s.CanSwitch c subset } := by
  rcases setSubset_cases c subset s with
    ⟨e, hrun, hnot⟩ | ⟨col, hcol, ⟨hsame, hrun⟩ | ⟨hne, hempty, hrun⟩⟩
  all_goals rw [hrun]
  · exact .of_cases (fun hswitch => absurd hswitch hnot) fun _ => rfl
  · refine .of_cases (fun ⟨col', hcol', hne, _⟩ => ?_) fun _ => rfl
    cases hcol.symm.trans hcol'
    exact absurd hsame hne
  · refine .of_cases (fun _ => ?_) fun hnot => absurd ⟨col, hcol, hne, hempty⟩ hnot
    exact .of_modify rfl fun _ _ => ⟨Nat.lt_succ_self _, .inl rfl⟩

/-- The operation fails and leaves the store as it is, or it succeeds and touches the collection. -/
def AllOrNothing (a : Action α) (c : CollectionKey) (s : Store) : Prop :=
  (∃ e, a s = (.error e, s)) ∨ ∃ x s', a s = (.ok x, s') ∧ Touches s s' {c}

namespace AllOrNothing

variable {a : Action α}

theorem eq_of_error {e : Error} (h : AllOrNothing a c s) (hrun : a s = (.error e, s')) : s' = s := by
  rcases h with ⟨e', hfailed⟩ | ⟨x, s'', hok, -⟩
  · cases hfailed.symm.trans hrun
    rfl
  · cases hok.symm.trans hrun

theorem touches (h : AllOrNothing a c s) : Touches s (a s).2 { d | d = c ∧ Succeeds a s } := by
  rcases h with ⟨e, hrun⟩ | ⟨x, s', hrun, htouches⟩
  · refine .of_cases (fun hok => absurd hok (not_succeeds_of_eq hrun)) fun _ => ?_
    rw [hrun]
  · refine .of_cases (fun _ => ?_) fun hnot => absurd (succeeds_of_eq hrun) hnot
    rw [hrun]
    exact htouches

end AllOrNothing

theorem touches_appendOwned {col : Collection} {k : ObjectKey}
    (hcol : s.collections.get? c = some col) (hnormal : col.isSubset = false)
    (h : s'.collections = s.collections.modify c (appendOwned · k)) : Touches s s' {c} := by
  obtain ⟨objects, hstorage⟩ := storage_of_normal hnormal
  refine .of_modify (f := (appendOwned · k)) h fun col' hcol' => ?_
  cases hcol.symm.trans hcol'
  rw [appendOwned_of_owned hstorage]
  exact ⟨Nat.lt_succ_self _, .inl rfl⟩

theorem allOrNothing_create (t : DataType) (c : CollectionKey) (payload : t.payload.Value)
    (s : Store) : AllOrNothing (create t c payload) c s := by
  rcases create_cases t c payload s with ⟨e, hrun⟩ | ⟨col, hcol, hnormal⟩
  · exact .inl ⟨e, hrun⟩
  · refine .inr ⟨_, _, create_apply hcol hnormal payload, ?_⟩
    refine touches_appendOwned (collectionAs_eq_ok hcol).1 hnormal (k := s.objects.next) ?_
    rw [withHandle_collections]
    rfl

theorem allOrNothing_push (c : CollectionKey) (handle : Handle t) (s : Store) :
    AllOrNothing (push c handle) c s := by
  rcases push_cases c handle s with
    ⟨e, hrun⟩ | ⟨col, k, hcol, -, ⟨o, n, -, -, -, hnormal, hrun⟩ | ⟨o, owner, i, -, -, -, hsubset, hrun⟩⟩
  · exact .inl ⟨e, hrun⟩
  · exact .inr ⟨_, _, hrun, touches_appendOwned hcol hnormal (k := k) rfl⟩
  · obtain ⟨slots, hstorage⟩ := storage_of_isSubset hsubset
    refine .inr ⟨_, _, hrun, .of_modify (f := (appendSlot · (.linked k))) rfl fun col' hcol' => ?_⟩
    cases hcol.symm.trans hcol'
    rw [appendSlot_of_subset hstorage]
    exact ⟨Nat.lt_succ_self _, .inl rfl⟩

theorem touches_rebuild (t : DataType) (b : Buffers) (id : CollectionId) (config : Config)
    (s : Store) : Touches s (rebuild t b id config s).2 ∅ := by
  rcases rebuild_cases t b id config s with
    ⟨e, hrun⟩ | ⟨htype, ⟨ids, hsubset, hids⟩ | ⟨contents, bodies, hsubset, hdecode⟩⟩
  · rw [hrun]
    exact .refl s
  · rw [rebuild_apply_subset htype hsubset hids]
    exact .of_insert (withFounded_collections ..)
  · rw [rebuild_apply_owned htype hsubset hdecode]
    exact .of_insert (withFounded_collections ..)

theorem touches_build (registry : Registry) (b : Buffers) (id : CollectionId) (config : Config)
    (s : Store) : Touches s (build registry b id config s).2 ∅ := by
  unfold build
  rcases registry.find? b.type with _ | t
  · exact .refl s
  · exact touches_rebuild t b id config s

/-! ## Resolution -/

/-- The collections that wait for resolution in one store, and no longer in the other. -/
def settledIn (s s' : Store) : Set CollectionKey :=
  { d | s.IsWaiting d ∧ ¬ s'.IsWaiting d }

theorem settledIn_self (s : Store) : settledIn s s = ∅ := by
  ext d
  simp [settledIn]

theorem Touches.isWaiting_iff (h : Touches s s' touched) (hlt : d < s.collections.next)
    (hd : d ∉ touched) : s'.IsWaiting d ↔ s.IsWaiting d := by
  unfold IsWaiting
  rw [h.same d hlt hd]

/-- A collection that is resolved counts that, and waits no longer. -/
theorem touches_resolved {col : Collection} {f : Collection → Collection}
    (hcol : s.collections.get? c = some col) (hwaits : col.isUnresolved = true)
    (h : s'.collections = s.collections.modify c f)
    (hf : col.generation < (f col).generation ∧ (f col).prepared = col.prepared ∧
      (f col).isUnresolved = false) : Touches s s' { d | d = c ∧ d ∈ settledIn s s' } := by
  refine (Touches.of_modify (c := c) h fun col' hcol' => ?_).congr fun d _ => ?_
  · cases hcol.symm.trans hcol'
    exact ⟨hf.1, .inr hf.2.1⟩
  · refine ⟨And.left, ?_⟩
    rintro rfl
    refine ⟨rfl, ⟨col, hcol, hwaits⟩, ?_⟩
    rintro ⟨col', hcol', hwaits'⟩
    rw [h, Arena.get?_modify_self hcol] at hcol'
    cases hcol'
    rw [hf.2.2] at hwaits'
    cases hwaits'

theorem touches_setReferences (resolver : Resolver) (c : CollectionKey) (s : Store) :
    Touches s (setReferences resolver c s).2
      { d | d = c ∧ d ∈ settledIn s (setReferences resolver c s).2 } := by
  have hsame : ∀ s', s' = s → Touches s s' { d | d = c ∧ d ∈ settledIn s s' } := by
    rintro s' rfl
    rw [settledIn_self]
    exact (Touches.refl s').congr fun d _ => by simp
  rcases hrun : setReferences resolver c s with ⟨e | ⟨⟩, s'⟩
  · exact hsame s' (setReferences_eq_error hrun)
  obtain ⟨col, hcol, ⟨-, rfl⟩ | ⟨hwaits, id, ⟨objects, many, one, -, rfl⟩ |
    ⟨slots, linked, many, -, rfl⟩⟩⟩ := setReferences_eq_ok_cases hrun
  · exact hsame _ rfl
  · refine touches_resolved hcol hwaits (by rw [modifyCollection_collections,
      assignAllSingles_collections]) ?_
    rw [withColumns_self]
    exact ⟨Nat.lt_succ_self _, rfl, rfl⟩
  · refine touches_resolved hcol hwaits rfl ?_
    rw [withColumns_self]
    exact ⟨Nat.lt_succ_self _, rfl, rfl⟩

/-- A collection that is resolved once does not wait again while others are resolved. -/
theorem Touches.trans_settled {p q : CollectionKey → Prop}
    (h : Touches s s₁ { d | p d ∧ d ∈ settledIn s s₁ })
    (h' : Touches s₁ s' { d | q d ∧ d ∈ settledIn s₁ s' }) :
    Touches s s' { d | (p d ∨ q d) ∧ d ∈ settledIn s s' } := by
  refine (h.trans h').congr fun d hlt => ?_
  have hfirst : ¬ (p d ∧ d ∈ settledIn s s₁) → (s₁.IsWaiting d ↔ s.IsWaiting d) :=
    h.isWaiting_iff hlt
  have hsecond : ¬ (q d ∧ d ∈ settledIn s₁ s') → (s'.IsWaiting d ↔ s₁.IsWaiting d) :=
    h'.isWaiting_iff (Nat.lt_of_lt_of_le hlt h.next)
  simp only [settledIn, Set.mem_union, Set.mem_ofPred_eq] at hfirst hsecond ⊢
  tauto

/-- A run that fails has resolved the collections before the failure. -/
theorem touches_resolveEach (resolver : Resolver) (cs : List CollectionKey) (s : Store) :
    Touches s (forEach (setReferences resolver) cs s).2
      { d | d ∈ cs ∧ d ∈ settledIn s (forEach (setReferences resolver) cs s).2 } := by
  induction cs generalizing s with
  | nil => exact (Touches.refl s).congr fun d _ => by simp
  | cons c cs ih =>
    rw [forEach, bind_apply]
    have hfirst := touches_setReferences resolver c s
    rcases hrun : setReferences resolver c s with ⟨e | ⟨⟩, s₁⟩
    · rw [setReferences_eq_error hrun, settledIn_self]
      exact (Touches.refl s).congr fun d _ => by simp
    · rw [hrun] at hfirst
      refine (hfirst.trans_settled (ih s₁)).congr fun d _ => ?_
      rw [Set.mem_ofPred_eq, List.mem_cons]
      rfl

/-- The collections that are not resolved need not be listed. -/
theorem Touches.of_settled {p : CollectionKey → Prop}
    (h : Touches s s' { d | p d ∧ d ∈ settledIn s s' }) : Touches s s' (settledIn s s') := by
  refine h.congr fun d hlt => ⟨fun hd => ?_, And.right⟩
  by_contra hnot
  exact hd.2 ((h.isWaiting_iff hlt hnot).2 hd.1)

theorem touches_resolveAll (cs : List CollectionKey) (s : Store) :
    Touches s (resolveAll cs s).2 (settledIn s (resolveAll cs s).2) := by
  rw [resolveAll, get_bind_apply]
  exact (touches_resolveEach _ _ s).of_settled

theorem touches_resolveFrame (f : FrameKey) (s : Store) :
    Touches s (resolveFrame f s).2 { d | (∃ frame name, s.frames.get? f = some frame ∧
      (name, d) ∈ frame.slots) ∧ d ∈ settledIn s (resolveFrame f s).2 } := by
  rw [resolveFrame, get_bind_apply, bind_apply, ask_apply]
  rcases hframe : s.frame f with e | frame
  · dsimp only
    rw [settledIn_self]
    exact (Touches.refl s).congr fun d _ => by simp
  · dsimp only
    refine (touches_resolveEach _ _ s).congr fun d _ => and_congr_left fun _ => ?_
    simp [frame_eq_ok_iff.1 hframe]

/-! ## Operations on frames -/

theorem touches_put (f : FrameKey) (name : String) (c : CollectionKey) (s : Store) :
    Touches s (put f name c s).2 { d | d = c ∧ ∃ frame, s.frames.get? f = some frame } := by
  refine .of_cases ?_ ?_
  · rintro ⟨frame, hframe⟩
    rcases hrun : put f name c s with ⟨e | id, s'⟩
    · rw [(put_eq_error hframe hrun).2]
      exact touches_discard c s
    · rcases put_cases f name c s with
        ⟨e, hput⟩ | ⟨e, hput⟩ | ⟨frame, id, ids, -, -, hput⟩ <;> rw [hput] at hrun <;> cases hrun
      exact .of_modify (f := fun col => { col with id }.touch) rfl
        fun _ _ => ⟨Nat.lt_succ_self _, .inl rfl⟩
  · intro hnone
    have hframe : s.frame f = .error .unavailable := by
      rcases hget : s.frames.get? f with _ | frame
      · rw [Store.frame, hget]
      · exact absurd ⟨frame, hget⟩ hnone
    rw [put, get_bind_apply, bind_apply, ask_apply, hframe]

theorem touches_discardFrame (f : FrameKey) (s : Store) :
    Touches s (discardFrame f s).2 { d | ∃ frame name, s.frames.get? f = some frame ∧
      (name, d) ∈ frame.slots } := by
  rw [discardFrame, get_bind_apply]
  rcases hframe : s.frames.get? f with _ | frame
  · exact (Touches.refl s).congr fun d _ => by simp
  · dsimp only
    rw [bind_apply_of_ok (forEach_discard_apply _ s), modify_apply]
    have hlast (s₁ : Store) : Touches s₁ { s₁ with frames := s₁.frames.erase f } ∅ := .of_eq rfl
    refine ((touches_discardAll (frame.slots.map (·.2)) s).trans (hlast _)).congr fun d _ => ?_
    simp

/-! ## Rebuilding a frame -/

/-- The frame holds only collections that were not there when `n` was the next key. -/
def HoldsFresh (s : Store) (f : FrameKey) (n : Nat) : Prop :=
  ∀ frame name d, s.frames.get? f = some frame → (name, d) ∈ frame.slots → n ≤ d

theorem HoldsFresh.put {f : FrameKey} {n : Nat} {name : String} {id : CollectionId}
    (h : s.HoldsFresh f n) (hc : n ≤ c) (hrun : put f name c s = (.ok id, s')) :
    s'.HoldsFresh f n := by
  rcases put_cases f name c s with
    ⟨e, hput⟩ | ⟨e, hput⟩ | ⟨frame, id, ids, hframe, -, hput⟩ <;>
      rw [hput] at hrun <;> cases hrun
  intro frame' name' d hframe' hslot
  rw [withPut_get?_frame name c _ hframe ids] at hframe'
  cases hframe'
  rcases List.mem_append.1 hslot with hold | hnew
  · exact h frame name' d hframe hold
  · obtain ⟨-, rfl⟩ := Prod.mk.inj (List.mem_singleton.1 hnew)
    exact hc

theorem touches_putAll {f : FrameKey} {registry : Registry} {config : Config}
    {entries : List (String × Buffers)} {n : Nat} (hnext : n ≤ s.collections.next)
    (hfresh : s.HoldsFresh f n) (hrun : putAll f registry config entries s = (.ok (), s')) :
    (∃ touched, Touches s s' touched ∧ ∀ d ∈ touched, n ≤ d) ∧ s'.HoldsFresh f n := by
  induction entries generalizing s with
  | nil =>
    cases hrun
    exact ⟨⟨∅, .refl _, nofun⟩, hfresh⟩
  | cons entry rest ih =>
    obtain ⟨name, buffers⟩ := entry
    rw [putAll, get_bind_apply] at hrun
    obtain ⟨frame, s₀, hframe, hrun⟩ := bind_eq_ok hrun
    rw [ask_apply] at hframe
    obtain ⟨hframe, rfl⟩ := Prod.mk.inj hframe
    rcases hid : frame.ids.id? name with _ | id
    · rw [hid] at hrun
      cases hrun
    rw [hid] at hrun
    obtain ⟨c, s₁, hbuild, hputs⟩ := bind_eq_ok hrun
    obtain ⟨id', s₂, hput, hothers⟩ := bind_eq_ok hputs
    obtain ⟨-, hframes, hkey⟩ := build_changes (s := s) registry buffers id config
    have htouches := touches_build registry buffers id config s
    have hputs := touches_put f name c s₁
    rw [hbuild] at hframes hkey htouches
    rw [hput] at hputs
    -- the key of what was built is new, and so is what the frame holds
    obtain ⟨rfl, -⟩ := hkey c rfl
    have hfresh₁ : s₁.HoldsFresh f n := fun frame name d hframe =>
      hfresh frame name d (hframes ▸ hframe)
    have hnext₂ := Nat.le_trans (Nat.le_trans hnext htouches.next) hputs.next
    obtain ⟨⟨touched, hrest, htouched⟩, hfresh'⟩ := ih hnext₂ (hfresh₁.put hnext hput) hothers
    refine ⟨⟨_, (htouches.trans hputs).trans hrest, ?_⟩, hfresh'⟩
    rintro d ((hd | ⟨rfl, -⟩) | hd)
    · exact absurd hd (Set.notMem_empty d)
    · exact hnext
    · exact htouched d hd

/-- What is rebuilt is new, and resolved within the new frame. -/
theorem touches_readFrame (data : FrameData) (registry : Registry) (config : Config) (s : Store) :
    Touches s (readFrame data registry config s).2 ∅ := by
  unfold readFrame transaction
  rcases hrun : readFrameSteps data registry config s with ⟨e | f, s'⟩
  · exact .refl s
  rw [readFrameSteps_apply] at hrun
  obtain ⟨⟨⟩, s₁, hput, hrun⟩ := bind_eq_ok hrun
  obtain ⟨⟨⟩, s₂, hresolve, hrun⟩ := bind_eq_ok hrun
  cases hrun
  have hempty : (s.withNewFrame config data).HoldsFresh s.frames.next s.collections.next := by
    intro frame name d hframe hslot
    rw [withNewFrame_get?] at hframe
    cases hframe
    cases hslot
  have hnew : Touches s (s.withNewFrame config data) ∅ := .of_eq rfl
  obtain ⟨⟨touched, hputs, htouched⟩, hfresh⟩ := touches_putAll hnew.next hempty hput
  have hresolves := touches_resolveFrame s.frames.next s₁
  rw [hresolve] at hresolves
  refine (hnew.trans_of_fresh hputs htouched).trans_of_fresh hresolves ?_
  rintro d ⟨⟨frame, name, hframe, hslot⟩, -⟩
  exact hfresh frame name d hframe hslot

/-! ## Preparing -/

theorem prepares_prepare (c : CollectionKey) (s : Store) :
    Prepares s (prepare c s).2 { d | d = c ∧ Succeeds (prepare c) s } := by
  unfold prepare
  rcases hcollection : s.collection c with e | col
  · exact .refl s _
  have hcol := collection_eq_ok_iff.1 hcollection
  dsimp only
  rcases hfilter : col.prepared.filter s.isCurrent with _ | p
  · have hstale : ∀ col' p, s.collections.get? c = some col' → col'.prepared = some p →
        s.isCurrent p = false := by
      intro col' p hcol' hp
      cases hcol.symm.trans hcol'
      rw [hp] at hfilter
      simpa using hfilter
    dsimp only
    rcases hflat : s.flattenCollection col with e | buffers
    · exact .of_modify rfl hstale (.inr rfl)
    · refine .of_modify rfl hstale (.inl ⟨rfl, (s.serial, buffers), ?_⟩)
      simp only [hcollection, hfilter, hflat]
  · exact .refl s _

/-- The collections in a list that are reached and prepared when it is prepared in order. -/
def preparedIn (s : Store) (slots : List (String × CollectionKey)) : Set CollectionKey :=
  { d | ∃ front name back found s₁, slots = front ++ (name, d) :: back ∧
    prepareAll front s = (.ok found, s₁) ∧ Succeeds (prepare d) s₁ }

/-- A failure ends the run, and what was prepared before stays prepared. -/
theorem prepares_prepareAll (slots : List (String × CollectionKey)) (s : Store) :
    Prepares s (prepareAll slots s).2 (s.preparedIn slots) := by
  induction slots generalizing s with
  | nil => exact .refl s _
  | cons slot rest ih =>
    obtain ⟨name, c⟩ := slot
    rw [prepareAll, bind_apply]
    have hfirst := prepares_prepare c s
    rcases hrun : prepare c s with ⟨e | ⟨serial, buffers⟩, s₁⟩
    · rw [hrun] at hfirst
      refine hfirst.mono ?_
      rintro d ⟨rfl, hok⟩
      exact absurd hok (not_succeeds_of_eq hrun)
    · rw [hrun] at hfirst
      have hrest : Prepares s₁ ((do
          return (name, buffers) :: (← prepareAll rest) : Action (List (String × Buffers))) s₁).2
            (s₁.preparedIn rest) := by
        have hrest := ih s₁
        rw [bind_apply]
        rcases hothers : prepareAll rest s₁ with ⟨e | found, s₂⟩ <;> rwa [hothers] at hrest
      refine (hfirst.trans hrest).mono ?_
      rintro d (⟨rfl, hok⟩ | ⟨front, name', back, found, s₂, rfl, hfront, hok⟩)
      · exact ⟨[], name, rest, [], s, rfl, rfl, hok⟩
      · refine ⟨(name, c) :: front, name', back, (name, buffers) :: found, s₂, rfl, ?_, hok⟩
        rw [prepareAll, bind_apply_of_ok hrun]
        exact bind_apply_of_ok hfront

theorem prepares_writeFrame (f : FrameKey) (s : Store) :
    Prepares s (writeFrame f s).2
      { d | ∃ frame, s.frames.get? f = some frame ∧ d ∈ s.preparedIn frame.slots } := by
  rw [writeFrame, get_bind_apply, bind_apply, ask_apply]
  rcases hframe : s.frame f with e | frame
  · exact .refl s _
  · have hall := prepares_prepareAll frame.slots s
    dsimp only
    rw [bind_apply]
    rcases hrun : prepareAll frame.slots s with ⟨e | found, s₁⟩ <;> rw [hrun] at hall <;>
      exact hall.mono fun d hd => ⟨frame, frame_eq_ok_iff.1 hframe, hd⟩

theorem writeStream_snd (config : StreamConfig) (f : FrameKey) (s : Store) :
    (writeStream config f s).2 = (writeFrame f s).2 := by
  rw [writeStream, bind_apply]
  rcases writeFrame f s with ⟨e | data, s'⟩ <;> rfl

theorem touches_readStream (config : StreamConfig) (registry : Registry) (bytes : Bytes)
    (s : Store) : Touches s (readStream config registry bytes s).2 ∅ := by
  unfold readStream
  rcases Stream.read config bytes with e | ⟨data, rest⟩
  · exact .refl s
  · have hread := touches_readFrame data registry config.rebuildConfig s
    dsimp only
    rcases hrun : readFrame data registry config.rebuildConfig s with ⟨e | f, s'⟩ <;>
      rwa [hrun] at hread

/-! ## All operations -/

/-- One operation, with the collections that it touches and those that it prepares. -/
inductive Act (s : Store) : Store → Set CollectionKey → Set CollectionKey → Prop
  /-- Any question. -/
  | ask : Act s s ∅ ∅
  | newObject (t : DataType) (payload : t.payload.Value) : Act s (newObject t payload s).2 ∅ ∅
  | refer (target : Option ObjectKey) : Act s (refer target s).2 ∅ ∅
  | erase (r : Reference) : Act s (erase r s).2 ∅ ∅
  | cloneHandle {t : DataType} (h : Handle t) : Act s (cloneHandle h s).2 ∅ ∅
  | cloneMutable {t : DataType} (h : MutableHandle t) : Act s (cloneMutable h s).2 ∅ ∅
  | downcast (t : DataType) (r : Reference) : Act s (downcast t r s).2 ∅ ∅
  | downcastMutable (t : DataType) (r : Reference) : Act s (downcastMutable t r s).2 ∅ ∅
  | unlink (r : Reference) : Act s (unlink r s).2 ∅ ∅
  | drop (r : Reference) : Act s (drop r s).2 ∅ ∅
  | relatedReferences {t : DataType} (h : Handle t) (relation : Nat) :
      Act s (relatedReferences h relation s).2 ∅ ∅
  | relatedHandles {t : DataType} (u : DataType) (h : Handle t) (relation : Nat) :
      Act s (relatedHandles u h relation s).2 ∅ ∅
  | singleReference {t : DataType} (h : Handle t) (relation : Nat) :
      Act s (singleReference h relation s).2 ∅ ∅
  | singleHandle {t : DataType} (u : DataType) (h : Handle t) (relation : Nat) :
      Act s (singleHandle u h relation s).2 ∅ ∅
  | updatePayload {t : DataType} (h : MutableHandle t) (f : t.payload.Value → t.payload.Value) :
      Act s (updatePayload h f s).2 (s.editing h (Succeeds (updatePayload h f) s)) ∅
  /-- The edit counts even if it fails, once its object is open for writing. -/
  | addRelated {t : DataType} (h : MutableHandle t) (relation : Nat) (target : Reference) :
      Act s (addRelated h relation target s).2
        (s.editing h (Succeeds (addRelated h relation target) s ∨
          s.AdmitsTarget t relation target ∧ s.DeniesLists h)) ∅
  /-- The edit counts even if it fails, once its object is open for writing. -/
  | clearRelated {t : DataType} (h : MutableHandle t) (relation : Nat) :
      Act s (clearRelated h relation s).2
        (s.editing h (Succeeds (clearRelated h relation) s ∨
          relation < t.toMany.length ∧ s.DeniesLists h)) ∅
  | setSingle {t : DataType} (h : MutableHandle t) (relation : Nat) (target : Reference) :
      Act s (setSingle h relation target s).2
        (s.editing h (Succeeds (setSingle h relation target) s)) ∅
  | pushMember {t : DataType} (h : MutableHandle t) (member : Nat) (value : t.element.Value) :
      Act s (pushMember h member value s).2
        (s.editing h (Succeeds (pushMember h member value) s)) ∅
  | setMembers {t : DataType} (h : MutableHandle t) (member : Nat) (values : List t.element.Value) :
      Act s (setMembers h member values s).2
        (s.editing h (Succeeds (setMembers h member values) s)) ∅
  | newCollection (t : DataType) (subset : Bool) (config : Config) :
      Act s (newCollection t subset config s).2 ∅ ∅
  | clear (c : CollectionKey) : Act s (clear c s).2 {c} ∅
  | discard (c : CollectionKey) : Act s (discard c s).2 {c} ∅
  | setCollectionId (c : CollectionKey) (id : CollectionId) :
      Act s (setCollectionId c id s).2 {c} ∅
  | setSubset (c : CollectionKey) (subset : Bool) :
      Act s (setSubset c subset s).2 { d | d = c ∧ s.CanSwitch c subset } ∅
  | create (t : DataType) (c : CollectionKey) (payload : t.payload.Value) :
      Act s (create t c payload s).2 { d | d = c ∧ Succeeds (create t c payload) s } ∅
  | push {t : DataType} (c : CollectionKey) (h : Handle t) :
      Act s (push c h s).2 { d | d = c ∧ Succeeds (push c h) s } ∅
  | objectAt (c : CollectionKey) (index : Nat) : Act s (objectAt c index s).2 ∅ ∅
  | getObject (t : DataType) (c : CollectionKey) (index : Nat) :
      Act s (getObject t c index s).2 ∅ ∅
  | getMutable (t : DataType) (c : CollectionKey) (index : Nat) :
      Act s (getMutable t c index s).2 ∅ ∅
  | rebuild (t : DataType) (b : Buffers) (id : CollectionId) (config : Config) :
      Act s (rebuild t b id config s).2 ∅ ∅
  | build (registry : Registry) (b : Buffers) (id : CollectionId) (config : Config) :
      Act s (build registry b id config s).2 ∅ ∅
  | setReferences (resolver : Resolver) (c : CollectionKey) :
      Act s (setReferences resolver c s).2
        { d | d = c ∧ d ∈ settledIn s (setReferences resolver c s).2 } ∅
  | resolveAll (cs : List CollectionKey) :
      Act s (resolveAll cs s).2 (settledIn s (resolveAll cs s).2) ∅
  | resolve (resolver : Resolver) (id : ObjectId) : Act s (resolve resolver id s).2 ∅ ∅
  | prepare (c : CollectionKey) : Act s (prepare c s).2 ∅ { d | d = c ∧ Succeeds (prepare c) s }
  | newFrame (config : Config) : Act s (newFrame config s).2 ∅ ∅
  | discardFrame (f : FrameKey) :
      Act s (discardFrame f s).2
        { d | ∃ frame name, s.frames.get? f = some frame ∧ (name, d) ∈ frame.slots } ∅
  /-- The collection gets a number, or it is destroyed because the frame rejects it. -/
  | put (f : FrameKey) (name : String) (c : CollectionKey) :
      Act s (put f name c s).2 { d | d = c ∧ ∃ frame, s.frames.get? f = some frame } ∅
  | setParameters (f : FrameKey) (parameters : Parameters) :
      Act s (setParameters f parameters s).2 ∅ ∅
  | take (t : DataType) (f : FrameKey) (name : String) : Act s (take t f name s).2 ∅ ∅
  | resolveFrame (f : FrameKey) :
      Act s (resolveFrame f s).2 (settledIn s (resolveFrame f s).2) ∅
  | writeFrame (f : FrameKey) :
      Act s (writeFrame f s).2 ∅
        { d | ∃ frame, s.frames.get? f = some frame ∧ d ∈ s.preparedIn frame.slots }
  | readFrame (data : FrameData) (registry : Registry) (config : Config) :
      Act s (readFrame data registry config s).2 ∅ ∅
  | writeStream (config : StreamConfig) (f : FrameKey) :
      Act s (writeStream config f s).2 ∅
        { d | ∃ frame, s.frames.get? f = some frame ∧ d ∈ s.preparedIn frame.slots }
  | readStream (config : StreamConfig) (registry : Registry) (bytes : Bytes) :
      Act s (readStream config registry bytes s).2 ∅ ∅

/-- Every operation is listed. -/
theorem Operation.act {operation : StateM Store α} (op : Operation operation) (s : Store) :
    ∃ touched prepared, Act s (operation s).2 touched prepared := by
  cases op with
  | ask => exact ⟨_, _, .ask⟩
  | newObject t payload => exact ⟨_, _, .newObject t payload⟩
  | refer target => exact ⟨_, _, .refer target⟩
  | erase r => exact ⟨_, _, .erase r⟩
  | cloneHandle h => exact ⟨_, _, .cloneHandle h⟩
  | cloneMutable h => exact ⟨_, _, .cloneMutable h⟩
  | downcast t r => exact ⟨_, _, .downcast t r⟩
  | downcastMutable t r => exact ⟨_, _, .downcastMutable t r⟩
  | unlink r => exact ⟨_, _, .unlink r⟩
  | drop r => exact ⟨_, _, .drop r⟩
  | relatedReferences h relation => exact ⟨_, _, .relatedReferences h relation⟩
  | relatedHandles u h relation => exact ⟨_, _, .relatedHandles u h relation⟩
  | singleReference h relation => exact ⟨_, _, .singleReference h relation⟩
  | singleHandle u h relation => exact ⟨_, _, .singleHandle u h relation⟩
  | updatePayload h f => exact ⟨_, _, .updatePayload h f⟩
  | addRelated h relation target => exact ⟨_, _, .addRelated h relation target⟩
  | clearRelated h relation => exact ⟨_, _, .clearRelated h relation⟩
  | setSingle h relation target => exact ⟨_, _, .setSingle h relation target⟩
  | pushMember h member value => exact ⟨_, _, .pushMember h member value⟩
  | setMembers h member values => exact ⟨_, _, .setMembers h member values⟩
  | newCollection t subset config => exact ⟨_, _, .newCollection t subset config⟩
  | clear c => exact ⟨_, _, .clear c⟩
  | discard c => exact ⟨_, _, .discard c⟩
  | setCollectionId c id => exact ⟨_, _, .setCollectionId c id⟩
  | setSubset c subset => exact ⟨_, _, .setSubset c subset⟩
  | create t c payload => exact ⟨_, _, .create t c payload⟩
  | push c h => exact ⟨_, _, .push c h⟩
  | objectAt c index => exact ⟨_, _, .objectAt c index⟩
  | getObject t c index => exact ⟨_, _, .getObject t c index⟩
  | getMutable t c index => exact ⟨_, _, .getMutable t c index⟩
  | rebuild t b id config => exact ⟨_, _, .rebuild t b id config⟩
  | build registry b id config => exact ⟨_, _, .build registry b id config⟩
  | setReferences resolver c => exact ⟨_, _, .setReferences resolver c⟩
  | resolveAll cs => exact ⟨_, _, .resolveAll cs⟩
  | resolve resolver id => exact ⟨_, _, .resolve resolver id⟩
  | prepare c => exact ⟨_, _, .prepare c⟩
  | newFrame config => exact ⟨_, _, .newFrame config⟩
  | discardFrame f => exact ⟨_, _, .discardFrame f⟩
  | put f name c => exact ⟨_, _, .put f name c⟩
  | setParameters f parameters => exact ⟨_, _, .setParameters f parameters⟩
  | take t f name => exact ⟨_, _, .take t f name⟩
  | resolveFrame f => exact ⟨_, _, .resolveFrame f⟩
  | writeFrame f => exact ⟨_, _, .writeFrame f⟩
  | readFrame data registry config => exact ⟨_, _, .readFrame data registry config⟩
  | writeStream config f => exact ⟨_, _, .writeStream config f⟩
  | readStream config registry bytes => exact ⟨_, _, .readStream config registry bytes⟩

/-- One step: an operation touches just the collections listed, or it only prepares. -/
theorem Act.touches_or_prepares (h : Act s s' touched prepared) :
    prepared = ∅ ∧ Touches s s' touched ∨ touched = ∅ ∧ Prepares s s' prepared := by
  cases h with
  | ask => exact .inl ⟨rfl, .refl s⟩
  | newObject t payload => exact .inl ⟨rfl, (LeavesCollections.newObject t payload).touches s⟩
  | refer target => exact .inl ⟨rfl, (LeavesCollections.refer target).touches s⟩
  | erase r => exact .inl ⟨rfl, LeavesCollections.touches (.get_bind fun _ => .refer _) s⟩
  | cloneHandle h =>
    exact .inl ⟨rfl, LeavesCollections.touches (.get_bind fun _ => .handleTo _ _) s⟩
  | cloneMutable h =>
    exact .inl ⟨rfl, LeavesCollections.touches (.get_bind fun _ => .mutableHandleTo _ _) s⟩
  | downcast t r => exact .inl ⟨rfl, (LeavesCollections.downcast t r).touches s⟩
  | downcastMutable t r => exact .inl ⟨rfl, (LeavesCollections.downcastMutable t r).touches s⟩
  | unlink r => exact .inl ⟨rfl, (LeavesCollections.unlink r).touches s⟩
  | drop r => exact .inl ⟨rfl, (LeavesCollections.drop r).touches s⟩
  | relatedReferences h relation =>
    exact .inl ⟨rfl, (LeavesCollections.relatedReferences h relation).touches s⟩
  | relatedHandles u h relation =>
    exact .inl ⟨rfl, (LeavesCollections.relatedHandles u h relation).touches s⟩
  | singleReference h relation =>
    exact .inl ⟨rfl, (LeavesCollections.singleReference h relation).touches s⟩
  | singleHandle u h relation =>
    exact .inl ⟨rfl, (LeavesCollections.singleHandle u h relation).touches s⟩
  | updatePayload h f => exact .inl ⟨rfl, touches_updatePayload h f s⟩
  | addRelated h relation target => exact .inl ⟨rfl, touches_addRelated h relation target s⟩
  | clearRelated h relation => exact .inl ⟨rfl, touches_clearRelated h relation s⟩
  | setSingle h relation target => exact .inl ⟨rfl, touches_setSingle h relation target s⟩
  | pushMember h member value => exact .inl ⟨rfl, touches_pushMember h member value s⟩
  | setMembers h member values => exact .inl ⟨rfl, touches_setMembers h member values s⟩
  | newCollection t subset config => exact .inl ⟨rfl, .of_insert rfl⟩
  | clear c => exact .inl ⟨rfl, touches_clear c s⟩
  | discard c => exact .inl ⟨rfl, touches_discard c s⟩
  | setCollectionId c id => exact .inl ⟨rfl, touches_setCollectionId c id s⟩
  | setSubset c subset => exact .inl ⟨rfl, touches_setSubset c subset s⟩
  | create t c payload => exact .inl ⟨rfl, (allOrNothing_create t c payload s).touches⟩
  | push c h => exact .inl ⟨rfl, (allOrNothing_push c h s).touches⟩
  | objectAt c index =>
    exact .inl ⟨rfl, LeavesCollections.touches
      (.get_bind fun _ => .ask_bind fun _ => .ask_bind fun _ => .refer _) s⟩
  | getObject t c index =>
    exact .inl ⟨rfl, LeavesCollections.touches
      (.get_bind fun _ => .ask_bind fun _ => .ask_bind fun _ => .handleTo _ _) s⟩
  | getMutable t c index =>
    exact .inl ⟨rfl, LeavesCollections.touches
      (.get_bind fun _ => .ask_bind fun _ => .ask_bind fun _ => .mutableHandleTo _ _) s⟩
  | rebuild t b id config => exact .inl ⟨rfl, touches_rebuild t b id config s⟩
  | build registry b id config => exact .inl ⟨rfl, touches_build registry b id config s⟩
  | setReferences resolver c => exact .inl ⟨rfl, touches_setReferences resolver c s⟩
  | resolveAll cs => exact .inl ⟨rfl, touches_resolveAll cs s⟩
  | resolve resolver id =>
    exact .inl ⟨rfl,
      LeavesCollections.touches (.get_bind fun _ => .ask_bind fun _ => .refer _) s⟩
  | prepare c => exact .inr ⟨rfl, prepares_prepare c s⟩
  | newFrame config => exact .inl ⟨rfl, .of_eq rfl⟩
  | discardFrame f => exact .inl ⟨rfl, touches_discardFrame f s⟩
  | put f name c => exact .inl ⟨rfl, touches_put f name c s⟩
  | setParameters f parameters => exact .inl ⟨rfl, .of_eq rfl⟩
  | take t f name => exact .inl ⟨rfl, (LeavesCollections.take t f name).touches s⟩
  | resolveFrame f => exact .inl ⟨rfl, (touches_resolveFrame f s).of_settled⟩
  | writeFrame f => exact .inr ⟨rfl, prepares_writeFrame f s⟩
  | readFrame data registry config => exact .inl ⟨rfl, touches_readFrame data registry config s⟩
  | writeStream config f =>
    rw [writeStream_snd]
    exact .inr ⟨rfl, prepares_writeFrame f s⟩
  | readStream config registry bytes =>
    exact .inl ⟨rfl, touches_readStream config registry bytes s⟩

end EventModel.Store
