import EventModel.Proofs.Store.Readers
import EventModel.Proofs.Store.RoundTrip

/-!
# Frames that can be viewed

Every link that shows in the view of a frame leads to an object of the frame. So what a round trip
asks of a frame can be read off its view: the frame is closed if nothing in it waits and its view
fits (`isClosed_of_viewFrame`), and its types are those of the view (`registers_of_viewFrame`).
-/

namespace EventModel

namespace ContentView

variable {t : DataType}

/-- The objects that are shown with their contents. -/
def objects : ContentView t → List (ObjectView t)
  | owned objects => objects
  | subset _ => []

/-- The number of places. -/
def size : ContentView t → Nat
  | owned objects => objects.length
  | subset places => places.length

/-- Positions in the collection and in its columns are not too large. -/
structure Fits (content : ContentView t) : Prop where
  relations : ∀ r : Fin t.toMany.length,
    (content.objects.map (·.toMany[r].length)).sum < columnLimit
  members : ∀ m : Fin t.members.length,
    (content.objects.map (·.members[m].length)).sum < columnLimit
  size : content.size ≤ 2 ^ 63

end ContentView

namespace Store

variable {s : Store} {f : FrameKey} {frame : Frame} {k k' : ObjectKey} {t : DataType}
  {views : List CollectionView}

/-! ## Objects -/

/-- Only the objects of a frame have a site in it. -/
theorem isHeldIn_of_siteOf {place : Option ObjectKey} {site : Site}
    (h : s.siteOf frame place = .ok site) : ∃ k, place = some k ∧ s.IsHeldIn frame k := by
  rcases bind_eq_ok_iff.1 h with ⟨o, ho, hsite⟩
  rcases available_eq_ok ho with ⟨k, rfl, hget, -⟩
  refine ⟨k, rfl, ?_⟩
  split at hsite
  · rename_i c i howned
    split at hsite
    · rename_i name hname
      rcases Option.map_eq_some_iff.1 hname with ⟨slot, hfound, -⟩
      have hslot : slot.2 = c := by simpa using List.find?_some hfound
      refine ⟨slot, List.mem_of_find?_eq_some hfound, ?_⟩
      simp [ownerOf?, hget, Object.owner?, howned, hslot]
    · cases hsite
  · cases hsite

/-- The place of an object is empty or leads to it. -/
theorem placeOf_eq_some (h : s.placeOf k = some k') : k' = k := by
  unfold placeOf at h
  split at h
  · exact (Option.some.inj h).symm
  · cases h

namespace IsView

variable {view : ObjectView t} (hview : s.IsView frame k view)

include hview

theorem exists_body : ∃ body, s.body t k = .ok body := by
  rcases bind_eq_ok_iff.1 hview.payload with ⟨⟨k', body⟩, hbody, -⟩
  rcases bodyOf_eq_ok hbody with ⟨hk, hbody⟩
  cases hk
  exact ⟨body, hbody⟩

/-- The links of a to-many relation are known, and the view shows where they lead. -/
theorem exists_links {body : Body t} (hbody : s.body t k = .ok body) (r : Fin t.toMany.length) :
    ∃ ks, s.links k body r = .ok ks ∧
      ks.mapM (fun k => s.siteOf frame (s.placeOf k)) = .ok view.toMany[r] := by
  rcases hview.toMany r with ⟨places, hrelated, hsites⟩
  rw [related_eq_map hbody, map_eq_ok_iff] at hrelated
  rcases hrelated with ⟨ks, hks, rfl⟩
  refine ⟨ks, hks, mapM_eq_ok_iff.2 ?_⟩
  rwa [mapM_eq_ok_iff, List.forall₂_map_left_iff] at hsites

/-- Whatever the object leads to is in the frame. -/
theorem isHeldIn (hk' : k' ∈ s.linkedObjects t k) : s.IsHeldIn frame k' := by
  have hsite : ∀ site, s.siteOf frame (s.placeOf k') = .ok site → s.IsHeldIn frame k' := by
    intro site hsite
    rcases isHeldIn_of_siteOf hsite with ⟨k₁, hplace, hheld⟩
    exact placeOf_eq_some hplace ▸ hheld
  rcases hview.exists_body with ⟨body, hbody⟩
  rcases (mem_linkedObjects_iff hbody).1 hk' with ⟨r, ks, hks, hmem⟩ | ⟨r, hsome⟩
  · rcases hview.exists_links hbody r with ⟨ks', hks', hsites⟩
    cases hks.symm.trans hks'
    rcases exists_right_of_forall₂ (mapM_eq_ok_iff.1 hsites) hmem with ⟨site, -, hk'⟩
    exact hsite site hk'
  · have hsingle := single_eq_ok hbody r
    rw [hsome, Option.map_some] at hsingle
    rcases hview.toOne r with ⟨hnone, -⟩ | ⟨place, site, hplace, hk', -⟩
    · cases hsingle.symm.trans hnone
    · cases hsingle.symm.trans hplace
      exact hsite site hk'

theorem relatedLength_eq (r : Fin t.toMany.length) :
    s.relatedLength t r k = view.toMany[r].length := by
  rcases hview.exists_body with ⟨body, hbody⟩
  rcases hview.exists_links hbody r with ⟨ks, hks, hsites⟩
  calc
    s.relatedLength t r k = body.count r := Store.relatedLength_eq hbody r
    _ = ks.length := count_of_links hks
    _ = view.toMany[r].length := (length_of_mapM_eq_ok hsites).symm

theorem memberLength_eq (m : Fin t.members.length) :
    s.memberLength t m k = view.members[m].length := by
  rw [memberLength, hview.members m]
  rfl

end IsView

/-! ## Collections -/

section Collections

variable {slot : String × CollectionKey} {col : Collection} {content : ContentView col.type}
  (hcontent : s.viewContent frame col = .ok content)

include hcontent

/-- The objects that a collection owns are those that are shown. -/
theorem forall₂_objects_of_viewContent :
    List.Forall₂ (s.IsView frame) col.storage.objects content.objects := by
  rcases viewContent_eq_ok_cases hcontent
    with ⟨objects, views, hstorage, rfl, hviews⟩ | ⟨slots, ks, sites, hstorage, rfl, -, -⟩
  · rw [hstorage]
    exact hviews
  · rw [hstorage]
    exact .nil

theorem size_of_viewContent : content.size = col.size := by
  unfold Collection.size
  rcases viewContent_eq_ok_cases hcontent
    with ⟨objects, views, hstorage, rfl, hviews⟩ | ⟨slots, ks, sites, hstorage, rfl, hks, hsites⟩
  · rw [hstorage]
    exact hviews.length_eq.symm
  · rw [hstorage]
    calc
      sites.length = ks.length := length_of_mapM_eq_ok hsites
      _ = (places col).length := by rw [places_of_allObjects hks, List.length_map]
      _ = slots.size := by simp [places, hstorage]

/-- What the places of a collection lead to is in the frame. -/
theorem isHeldIn_of_viewContent (h : WellFormed s) (hslot : slot ∈ frame.slots)
    (hcol : s.collections.get? slot.2 = some col) :
    ∀ place ∈ places col, ∃ k ∈ place, s.IsHeldIn frame k := by
  intro place hplace
  rcases viewContent_eq_ok_cases hcontent
    with ⟨objects, views, hstorage, -, -⟩ | ⟨slots, ks, sites, -, -, hks, hsites⟩
  -- the collection is in the frame, and so are the objects that it owns
  · unfold places at hplace
    rw [hstorage] at hplace
    rcases List.mem_map.1 hplace with ⟨k, hk, rfl⟩
    rcases List.getElem?_of_mem hk with ⟨i, hi⟩
    rw [Array.getElem?_toList] at hi
    rcases h.listed slot.2 col objects i k hcol hstorage hi with ⟨o, ho, -, howned⟩
    exact ⟨k, rfl, slot, hslot, by simp [ownerOf?, ho, Object.owner?, howned]⟩
  -- every member that a subset collection shows has a site
  · rw [places_of_allObjects hks] at hplace
    rcases List.mem_map.1 hplace with ⟨k, hk, rfl⟩
    rcases exists_right_of_forall₂ (mapM_eq_ok_iff.1 hsites) hk with ⟨site, -, hsite⟩
    rcases isHeldIn_of_siteOf hsite with ⟨k', heq, hheld⟩
    exact ⟨k', heq, hheld⟩

/-- A collection is closed if nothing in it waits and its view fits. -/
theorem closesIn_of_viewContent (h : WellFormed s) (hslot : slot ∈ frame.slots)
    (hcol : s.collections.get? slot.2 = some col) (hfits : content.Fits)
    (hresolved : col.isUnresolved = false) : s.ClosesIn frame col := by
  have hobjects := forall₂_objects_of_viewContent hcontent
  -- a column of what is shown is as long as the column that will be written
  have hsum : ∀ {length : ObjectKey → Nat} {shown : ObjectView col.type → Nat},
      (∀ k view, s.IsView frame k view → length k = shown view) →
        (col.storage.objects.map length).sum = (content.objects.map shown).sum := by
    intro length shown hsame
    have hmaps : List.Forall₂ Eq (col.storage.objects.map length) (content.objects.map shown) :=
      List.forall₂_map_left_iff.2 (List.forall₂_map_right_iff.2 (hobjects.imp hsame))
    rw [List.forall₂_eq_eq_eq] at hmaps
    rw [hmaps]
  refine ⟨hresolved, ?_, isHeldIn_of_viewContent hcontent h hslot hcol, ?_, ?_, ?_⟩
  · intro k hk k' hk'
    rcases exists_right_of_forall₂ hobjects hk with ⟨view, -, hview⟩
    exact hview.isHeldIn hk'
  · intro r
    rw [hsum fun k view hview => hview.relatedLength_eq r]
    exact hfits.relations r
  · intro m
    rw [hsum fun k view hview => hview.memberLength_eq m]
    exact hfits.members m
  · rw [← size_of_viewContent hcontent]
    exact hfits.size

end Collections

/-! ## Frames -/

section Frames

variable (hviews : s.viewFrame frame = .ok views)

include hviews

/-- The view shows each collection of the frame. -/
theorem exists_view_of_mem {slot : String × CollectionKey} (hslot : slot ∈ frame.slots)
    {col : Collection} (hcol : s.collections.get? slot.2 = some col) :
    ∃ content : ContentView col.type, s.viewContent frame col = .ok content ∧
      ⟨slot.1, col.id, col.type, content⟩ ∈ views := by
  rcases exists_right_of_forall₂ (mapM_eq_ok_iff.1 hviews) hslot with ⟨view, hview, hshown⟩
  rcases viewCollection_eq_ok hshown with ⟨col', content, hcol', hcontent, rfl⟩
  cases hcol.symm.trans hcol'
  exact ⟨content, hcontent, hview⟩

/-- A frame is closed if nothing in it waits and its view fits. -/
theorem isClosed_of_viewFrame (h : WellFormed s) (hfits : ∀ view ∈ views, view.content.Fits)
    (hresolved : ∀ slot ∈ frame.slots, ∀ col ∈ s.collections.get? slot.2,
      col.isUnresolved = false) : s.IsClosed frame where
  collections slot hslot col hcol := by
    rcases exists_view_of_mem hviews hslot hcol with ⟨content, hcontent, hview⟩
    exact closesIn_of_viewContent hcontent h hslot hcol (hfits _ hview) (hresolved slot hslot col hcol)

/-- A registry has the types of a frame if it has those of its view. -/
theorem registers_of_viewFrame {registry : Registry}
    (htypes : ∀ view ∈ views, registry.find? view.type.name = some view.type) :
    Registers registry s frame := by
  intro slot hslot col hcol
  rcases exists_view_of_mem hviews hslot hcol with ⟨content, -, hview⟩
  exact htypes _ hview

end Frames

end Store

end EventModel
