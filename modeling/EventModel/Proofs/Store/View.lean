import EventModel.Proofs.Store.Faithful

/-!
# What can be seen of a frame

The view of a frame is what the accessors show of its collections and objects. An object that a link
leads to is named by its site: the name of the collection that owns it and its position there. Keys
do not show, so that frames of different stores can be compared.
-/

namespace EventModel

/-! ## Views -/

/-- The name of a collection of a frame and a position in it. -/
abbrev Site :=
  String × Nat

/-- What is seen of an object. -/
structure ObjectView (t : DataType) where
  payload : t.payload.Value
  members : Vector (List t.element.Value) t.members.length
  toMany : Vector (List Site) t.toMany.length
  toOne : Vector (Option Site) t.toOne.length

/-- What is seen of the objects or the places of a collection. -/
inductive ContentView (t : DataType)
  | owned (objects : List (ObjectView t))
  | subset (places : List Site)

/-- What is seen of a collection of a frame. -/
structure CollectionView where
  name : String
  id : CollectionId
  type : DataType
  content : ContentView type

/-- The name under which the frame holds a collection. -/
def Frame.nameOf? (frame : Frame) (c : CollectionKey) : Option String :=
  (frame.slots.find? (·.2 == c)).map (·.1)

namespace Store

/-- The place of an object in a frame, if one of its collections owns the object. -/
def siteOf (s : Store) (frame : Frame) (target : Option ObjectKey) : Except Error Site := do
  match (← s.available target).tracking with
  | .owned c i =>
    match frame.nameOf? c with
    | some name => return (name, i)
    | none => throw .unavailable
  | _ => throw .unavailable

/-- What the accessors of an object show. -/
def viewObject (s : Store) (frame : Frame) (t : DataType) (k : ObjectKey) :
    Except Error (ObjectView t) := do
  let payload ← s.payload t (some k)
  let members ← tryOfFn fun m : Fin t.members.length => s.members t (some k) m
  let toMany ← tryOfFn fun r : Fin t.toMany.length => do
    (← s.related t (some k) r).mapM (s.siteOf frame)
  let toOne ← tryOfFn fun r : Fin t.toOne.length => do
    match ← s.single t (some k) r with
    | none => return none
    | some place => some <$> s.siteOf frame place
  return { payload, members, toMany, toOne }

def viewContent (s : Store) (frame : Frame) (col : Collection) :
    Except Error (ContentView col.type) := do
  let objects ← allObjects col
  if col.isSubset then
    .subset <$> objects.mapM fun k => s.siteOf frame (some k)
  else
    .owned <$> objects.mapM (s.viewObject frame col.type)

def viewCollection (s : Store) (frame : Frame) (slot : String × CollectionKey) :
    Except Error CollectionView := do
  let col ← s.collection slot.2
  return ⟨slot.1, col.id, col.type, ← s.viewContent frame col⟩

/-- The collections of a frame in their order. -/
def viewFrame (s : Store) (frame : Frame) : Except Error (List CollectionView) :=
  frame.slots.mapM (s.viewCollection frame)

variable {s s' : Store} {frame frame' : Frame} {entries : List FlatCollection} {k k' : ObjectKey}

/-! ## Sites -/

theorem nameOf?_eq_some (h : WellFormed s) (hheld : ∃ f, s.frames.get? f = some frame)
    {name : String} {c : CollectionKey} (hslot : (name, c) ∈ frame.slots) :
    frame.nameOf? c = some name := by
  unfold Frame.nameOf?
  rcases hfound : frame.slots.find? (·.2 == c) with _ | ⟨name', c'⟩
  · rw [List.find?_eq_none] at hfound
    exact absurd (beq_self_eq_true c) (hfound (name, c) hslot)
  · obtain rfl : c' = c := by simpa using List.find?_some hfound
    have hslot' := List.mem_of_find?_eq_some hfound
    rw [hfound, Option.map_some, (h.slot_eq hheld hslot' hslot).2 rfl]

theorem Keeps.existsObject {c : CollectionKey} {i : Nat} (hk : s.Keeps c i k) :
    s.existsObject k = true := by
  rcases hk with ⟨o, ho, htracking⟩
  simp [Store.existsObject, ho, htracking]

theorem Keeps.placeOf {c : CollectionKey} {i : Nat} (hk : s.Keeps c i k) :
    s.placeOf k = some k :=
  if_pos hk.existsObject

theorem Keeps.siteOf (h : WellFormed s) (hheld : ∃ f, s.frames.get? f = some frame)
    {name : String} {c : CollectionKey} (hslot : (name, c) ∈ frame.slots) {i : Nat}
    (hk : s.Keeps c i k) : s.siteOf frame (some k) = .ok (name, i) := by
  rcases hk with ⟨o, ho, htracking⟩
  have havailable : s.available (some k) = .ok o := by
    simp [available, ho, Object.isReleased, htracking]
  unfold Store.siteOf
  rw [havailable]
  simp only [bind, Except.bind, htracking, nameOf?_eq_some h hheld hslot]
  rfl

/-- The object is in the frame, at this site. -/
structure HasSite (s : Store) (frame : Frame) (k : ObjectKey) (site : Site) : Prop where
  place : s.placeOf k = some k
  site : s.siteOf frame (some k) = .ok site

theorem Keeps.hasSite (h : WellFormed s) (hheld : ∃ f, s.frames.get? f = some frame)
    {name : String} {c : CollectionKey} (hslot : (name, c) ∈ frame.slots) {i : Nat}
    (hk : s.Keeps c i k) : s.HasSite frame k (name, i) :=
  ⟨hk.placeOf, hk.siteOf h hheld hslot⟩

theorem HasSite.siteOf_placeOf {site : Site} (h : s.HasSite frame k site) :
    s.siteOf frame (s.placeOf k) = .ok site := by
  rw [h.place, h.site]

namespace Mirrors

/-- Counterparts have the same site. -/
theorem siteOf_agree (h : Mirrors s s' frame frame' entries)
    (hk : Counterpart s s' frame frame' k k') :
    Agree (s.siteOf frame (some k)) (s'.siteOf frame' (some k')) := by
  rcases hk with ⟨e, c, c', i, hpairs, hkeeps, hkeeps'⟩
  exact ⟨(e.name, i), hkeeps.siteOf h.wellFormed h.held hpairs.slot,
    hkeeps'.siteOf h.wellFormed' h.held' hpairs.slot'⟩

end Mirrors

/-! ## Objects -/

/-- The bodies show the same, with counterparts in the places of links. -/
structure Resembles (s s' : Store) (frame frame' : Frame) {t : DataType} (k k' : ObjectKey)
    (body body' : Body t) : Prop where
  payload : body'.payload = body.payload
  members : body'.members = body.members
  toMany : ∀ r : Fin t.toMany.length, ∃ ks ks', s.links k body r = .ok ks ∧
    s'.links k' body' r = .ok ks' ∧ List.Forall₂ (Counterpart s s' frame frame') ks ks'
  toOne : ∀ r : Fin t.toOne.length, (body.toOne[r] = none ∧ body'.toOne[r] = none) ∨
    ∃ k₁ k₁', body.toOne[r] = some k₁ ∧ body'.toOne[r] = some k₁' ∧
      Counterpart s s' frame frame' k₁ k₁'

theorem Counterpart.placeOf (hk : Counterpart s s' frame frame' k k') :
    s.placeOf k = some k ∧ s'.placeOf k' = some k' := by
  rcases hk with ⟨e, c, c', i, -, hkeeps, hkeeps'⟩
  exact ⟨hkeeps.placeOf, hkeeps'.placeOf⟩

section Objects

variable {t : DataType} {body body' : Body t}

/-- The accessors of the object show this view. -/
structure IsView (s : Store) (frame : Frame) (k : ObjectKey) (view : ObjectView t) : Prop where
  payload : s.payload t (some k) = .ok view.payload
  members : ∀ m : Fin t.members.length, s.members t (some k) m = .ok view.members[m]
  toMany : ∀ r : Fin t.toMany.length, ∃ places, s.related t (some k) r = .ok places ∧
    places.mapM (s.siteOf frame) = .ok view.toMany[r]
  toOne : ∀ r : Fin t.toOne.length,
    (s.single t (some k) r = .ok none ∧ view.toOne[r] = none) ∨
      ∃ place site, s.single t (some k) r = .ok (some place) ∧ s.siteOf frame place = .ok site ∧
        view.toOne[r] = some site

theorem viewObject_eq_ok_iff {view : ObjectView t} :
    s.viewObject frame t k = .ok view ↔ s.IsView frame k view := by
  constructor
  · intro h
    rcases bind_eq_ok_iff.1 h with ⟨payload, hpayload, h⟩
    rcases bind_eq_ok_iff.1 h with ⟨members, hmembers, h⟩
    rcases bind_eq_ok_iff.1 h with ⟨toMany, htoMany, h⟩
    rcases bind_eq_ok_iff.1 h with ⟨toOne, htoOne, h⟩
    cases h
    refine ⟨hpayload, tryOfFn_apply hmembers, ?_, ?_⟩
    · intro r
      exact bind_eq_ok_iff.1 (tryOfFn_apply htoMany r)
    · intro r
      rcases bind_eq_ok_iff.1 (tryOfFn_apply htoOne r) with ⟨_ | place, hsingle, hplace⟩
      · exact .inl ⟨hsingle, (Except.ok.inj hplace).symm⟩
      · rcases map_eq_ok_iff.1 hplace with ⟨site, hsite, heq⟩
        exact .inr ⟨place, site, hsingle, hsite, heq.symm⟩
  · intro h
    refine bind_eq_ok_iff.2 ⟨_, h.payload, ?_⟩
    refine bind_eq_ok_iff.2 ⟨view.members, tryOfFn_eq_ok_iff.2 h.members, ?_⟩
    refine bind_eq_ok_iff.2 ⟨view.toMany, tryOfFn_eq_ok_iff.2 ?_, ?_⟩
    · exact fun r => bind_eq_ok_iff.2 (h.toMany r)
    · refine bind_eq_ok_iff.2 ⟨view.toOne, tryOfFn_eq_ok_iff.2 ?_, rfl⟩
      intro r
      rcases h.toOne r with ⟨hsingle, hnone⟩ | ⟨place, site, hsingle, hsite, hsome⟩
      · exact bind_eq_ok_iff.2 ⟨none, hsingle, congrArg _ hnone.symm⟩
      · exact bind_eq_ok_iff.2 ⟨some place, hsingle, map_eq_ok_iff.2 ⟨site, hsite, hsome.symm⟩⟩

/-- The view of an object whose links lead to objects with sites. -/
theorem isView_of_links {view : ObjectView t} (hbody : s.body t k = .ok body)
    (hpayload : view.payload = body.payload) (hmembers : view.members = body.members)
    (htoMany : ∀ r : Fin t.toMany.length, ∃ ks, s.links k body r = .ok ks ∧
      List.Forall₂ (s.HasSite frame) ks view.toMany[r])
    (htoOne : ∀ r : Fin t.toOne.length, Option.Rel (s.HasSite frame) body.toOne[r] view.toOne[r]) :
    s.IsView frame k view where
  payload := hpayload ▸ payload_eq_ok hbody
  members m := hmembers ▸ members_eq_ok hbody m
  toMany r := by
    rcases htoMany r with ⟨ks, hks, hsites⟩
    refine ⟨ks.map s.placeOf, ?_, ?_⟩
    · rw [related_eq_map hbody, hks]
      rfl
    · rw [mapM_eq_ok_iff, List.forall₂_map_left_iff]
      exact hsites.imp fun _ _ hsite => hsite.siteOf_placeOf
  toOne r := by
    have hrelated := htoOne r
    rw [single_eq_ok hbody]
    generalize body.toOne[r] = target at hrelated ⊢
    generalize view.toOne[r] = site at hrelated ⊢
    cases hrelated with
    | some hsite => exact .inr ⟨_, _, rfl, hsite.siteOf_placeOf, rfl⟩
    | none => exact .inl ⟨rfl, rfl⟩

namespace Mirrors

theorem related_agree (h : Mirrors s s' frame frame' entries) {ks ks' : List ObjectKey}
    (hks : List.Forall₂ (Counterpart s s' frame frame') ks ks') :
    Agree ((ks.map s.placeOf).mapM (s.siteOf frame))
      ((ks'.map s'.placeOf).mapM (s'.siteOf frame')) := by
  refine agree_mapM ?_
  rw [List.forall₂_map_left_iff, List.forall₂_map_right_iff]
  refine hks.imp ?_
  intro k k' hk
  rw [hk.placeOf.1, hk.placeOf.2]
  exact h.siteOf_agree hk

/-- Objects whose bodies resemble each other have the same view. -/
theorem viewObject_agree (h : Mirrors s s' frame frame' entries)
    (hbody : s.body t k = .ok body) (hbody' : s'.body t k' = .ok body')
    (hsame : Resembles s s' frame frame' k k' body body') :
    Agree (s.viewObject frame t k) (s'.viewObject frame' t k') := by
  have hpayload : Agree (s.payload t (some k)) (s'.payload t (some k')) :=
    ⟨_, payload_eq_ok hbody, hsame.payload ▸ payload_eq_ok hbody'⟩
  have hmembers : ∀ m : Fin t.members.length,
      Agree (s.members t (some k) m) (s'.members t (some k') m) := fun m =>
    ⟨_, members_eq_ok hbody m, hsame.members ▸ members_eq_ok hbody' m⟩
  refine hpayload.bind fun payload => (agree_tryOfFn hmembers).bind fun members =>
    (agree_tryOfFn ?_).bind fun toMany => (agree_tryOfFn ?_).bind fun toOne => .pure _
  · intro r
    rcases hsame.toMany r with ⟨ks, ks', hks, hks', hlinks⟩
    rw [related_eq_map hbody r, related_eq_map hbody' r, hks, hks']
    exact h.related_agree hlinks
  · intro r
    rw [single_eq_ok hbody r, single_eq_ok hbody' r]
    rcases hsame.toOne r with ⟨hnone, hnone'⟩ | ⟨k₁, k₁', hsome, hsome', hk₁⟩
    · rw [hnone, hnone']
      exact .pure none
    · rw [hsome, hsome', Option.map_some, Option.map_some, hk₁.placeOf.1, hk₁.placeOf.2]
      exact (h.siteOf_agree hk₁).bind fun site => .pure (some site)

end Mirrors

end Objects

/-! ## Collections -/

theorem allObjects_eq_ok {col : Collection} {ks : List ObjectKey}
    (h : places col = ks.map some) : allObjects col = .ok ks := by
  unfold allObjects
  rw [h, mapM_eq_ok_iff, List.forall₂_map_left_iff]
  exact List.forall₂_same.2 fun _ _ => rfl

/-- Every place leads to an object. -/
theorem places_of_allObjects {col : Collection} {ks : List ObjectKey}
    (h : allObjects col = .ok ks) : places col = ks.map some := by
  unfold allObjects at h
  have hsame : List.Forall₂ Eq (places col) (ks.map some) := by
    refine List.forall₂_map_right_iff.2 ((mapM_eq_ok_iff.1 h).imp ?_)
    rintro (_ | k') k hk
    · cases hk
    · cases hk
      rfl
  rwa [List.forall₂_eq_eq_eq] at hsame

section Collections

variable {t : DataType} {c : CollectionKey} {id : CollectionId} {origin : Option (Origin t)}

theorem viewCollection_owned {keys : List ObjectKey} {views : List (ObjectView t)}
    (hstands : s.Stands c t id (.owned keys.toArray) origin)
    (hviews : keys.mapM (s.viewObject frame t) = .ok views) (name : String) :
    s.viewCollection frame (name, c) = .ok ⟨name, id, t, .owned views⟩ := by
  rcases hstands with ⟨config, generation, prepared, hcol⟩
  refine bind_eq_ok_iff.2 ⟨_, collection_eq_ok_iff.2 hcol, bind_eq_ok_iff.2 ⟨.owned views, ?_, rfl⟩⟩
  exact bind_eq_ok_iff.2 ⟨keys, allObjects_eq_ok (places_owned keys),
    map_eq_ok_iff.2 ⟨views, hviews, rfl⟩⟩

theorem viewCollection_subset {ks : List ObjectKey} {sites : List Site}
    (hstands : s.Stands c t id (.subset (ks.map Slot.linked).toArray) origin)
    (hsites : ks.mapM (fun k => s.siteOf frame (some k)) = .ok sites) (name : String) :
    s.viewCollection frame (name, c) = .ok ⟨name, id, t, .subset sites⟩ := by
  rcases hstands with ⟨config, generation, prepared, hcol⟩
  refine bind_eq_ok_iff.2 ⟨_, collection_eq_ok_iff.2 hcol,
    bind_eq_ok_iff.2 ⟨.subset sites, ?_, rfl⟩⟩
  exact bind_eq_ok_iff.2 ⟨ks, allObjects_eq_ok (places_linked ks),
    map_eq_ok_iff.2 ⟨sites, hsites, rfl⟩⟩

end Collections

/-- A collection that can be viewed owns objects with views, or its places lead to objects with
sites. -/
theorem viewContent_eq_ok_cases {col : Collection} {content : ContentView col.type}
    (h : s.viewContent frame col = .ok content) :
    (∃ objects views, col.storage = .owned objects ∧ content = .owned views ∧
        List.Forall₂ (s.IsView frame) objects.toList views) ∨
      ∃ slots ks sites, col.storage = .subset slots ∧ content = .subset sites ∧
        allObjects col = .ok ks ∧ ks.mapM (fun k => s.siteOf frame (some k)) = .ok sites := by
  rcases bind_eq_ok_iff.1 h with ⟨ks, hks, hcontent⟩
  rcases hstorage : col.storage with objects | slots
  · have hnormal : ¬ col.isSubset = true := by simp [Collection.isSubset, Storage.isSubset, hstorage]
    rw [if_neg hnormal] at hcontent
    rcases map_eq_ok_iff.1 hcontent with ⟨views, hviews, heq⟩
    have hobjects : objects.toList.map some = ks.map some := by
      have hplaces := places_of_allObjects hks
      unfold places at hplaces
      rwa [hstorage] at hplaces
    rw [List.map_inj_right fun _ _ => Option.some.inj] at hobjects
    refine .inl ⟨objects, views, rfl, heq.symm, ?_⟩
    rw [hobjects]
    exact (mapM_eq_ok_iff.1 hviews).imp fun _ _ hview => viewObject_eq_ok_iff.1 hview
  · have hsubset : col.isSubset = true := by simp [Collection.isSubset, Storage.isSubset, hstorage]
    rw [if_pos hsubset] at hcontent
    rcases map_eq_ok_iff.1 hcontent with ⟨sites, hsites, heq⟩
    exact .inr ⟨slots, ks, sites, rfl, heq.symm, hks, hsites⟩

theorem viewCollection_eq_ok {slot : String × CollectionKey} {view : CollectionView}
    (h : s.viewCollection frame slot = .ok view) :
    ∃ (col : Collection) (content : ContentView col.type), s.collections.get? slot.2 = some col ∧
      s.viewContent frame col = .ok content ∧ view = ⟨slot.1, col.id, col.type, content⟩ := by
  rcases bind_eq_ok_iff.1 h with ⟨col, hcol, h⟩
  rcases bind_eq_ok_iff.1 h with ⟨content, hcontent, h⟩
  exact ⟨col, content, collection_eq_ok_iff.1 hcol, hcontent, (Except.ok.inj h).symm⟩

end Store

end EventModel
