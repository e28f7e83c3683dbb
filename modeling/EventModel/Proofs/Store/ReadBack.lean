import EventModel.Proofs.Store.Faithful

/-!
# Reading back a frame that was written

A frame that is written in one store and read in another is a mirror of the frame that was written.
Its links are those of the written frame exactly if the written frame is faithful.
-/

namespace EventModel.Store

variable {s s₂ s₃ : Store} {f f' : FrameKey} {frame frame' : Frame} {d : FrameData}
  {registry : Registry} {config : Config} {entries : List FlatCollection}

/-- Where the registry knows the name of the type of a collection, it has that type for it. -/
def Recognizes (registry : Registry) (s : Store) (frame : Frame) : Prop :=
  ∀ slot ∈ frame.slots, ∀ col, s.collections.get? slot.2 = some col →
    ∀ t, registry.find? col.type.name = some t → t = col.type

/-- The flat collections of a frame have the names that the frame has. -/
theorem names_eq_of_flats {P : CollectionKey → (t : DataType) → CollectionId → Flat t → Prop}
    (h : List.Forall₂ (Names P) frame.slots entries) : entries.map (·.name) = frame.names := by
  have hnames : List.Forall₂ (fun slot e => slot = e) (frame.slots.map (·.1))
      (entries.map (·.name)) := by
    refine List.forall₂_map_left_iff.2 (List.forall₂_map_right_iff.2 (h.imp ?_))
    intro slot e he
    exact he.name
  exact (List.forall₂_eq_eq_eq ▸ hnames : frame.slots.map (·.1) = entries.map (·.name)).symm

/-- A collection of the frame with its flat form is what the reader of the frame asks for. -/
theorem Names.registered (h : WellFormed s) (hframe : s.frames.get? f = some frame)
    {slot : String × CollectionKey} {e : FlatCollection} (hslot : slot ∈ frame.slots)
    (hnames : Names s.HasFlat slot e) (hregistry : Recognizes registry s frame)
    (hknown : ∃ t, registry.find? e.type.name = some t) : Registered registry frame.ids e := by
  rcases hnames.collection.flatOf with ⟨config', storage, generation, prepared, origin, hcol, -⟩
  rcases hknown with ⟨t, hfound⟩
  have htype : t = e.type := hregistry slot hslot _ hcol t hfound
  refine ⟨?_, ?_, hnames.collection.isTiled⟩
  · rcases h.held f frame slot.1 slot.2 hframe hslot with ⟨col, hcol', hid⟩
    cases hcol.symm.trans hcol'
    rw [← hnames.name]
    exact hid
  · rw [hfound, htype]

theorem registered_of_readFrame (h : WellFormed s) (hframe : s.frames.get? f = some frame)
    (hflats : List.Forall₂ (Names s.HasFlat) frame.slots entries)
    (hdata : d.collections = entries.map FlatCollection.data)
    (hregistry : Recognizes registry s frame) (hbuilt : d.ids.Built)
    (hread : readFrame d registry config s₂ = (.ok f', s₃)) :
    ∀ e ∈ entries, Registered registry frame.ids e := by
  intro e he
  rcases exists_right_of_forall₂ hflats.flip he with ⟨slot, hslot, hnames⟩
  refine Names.registered h hframe hslot hnames hregistry ?_
  have hentry : e.data ∈ d.collections := hdata ▸ List.mem_map_of_mem he
  rcases exists_type_of_readFrame hbuilt hread e.data hentry with ⟨t, ht⟩
  refine ⟨t, ?_⟩
  rw [← ht]
  exact congrArg registry.find? (Flat.buffers_type e.flat).symm

/-- A frame that was read back mirrors the frame that was written. -/
theorem mirrors_of_readFrame (h : Reachable s) (hframe : s.frame f = .ok frame)
    (hwrite : (writeFrame f s).1 = .ok d) (hregistry : Recognizes registry s frame)
    (h₂ : Reachable s₂) (hread : readFrame d registry config s₂ = (.ok f', s₃))
    (hframe' : s₃.frame f' = .ok frame') :
    ∃ entries, Mirrors s s₃ frame frame' entries := by
  rcases (writeFrame_eq_ok_iff_names h).1 hwrite with ⟨frame₀, entries, hframe₀, hflats, hdata⟩
  cases hframe.symm.trans hframe₀
  have hget := frame_eq_ok_iff.1 hframe
  have hcollections : d.collections = entries.map FlatCollection.data := by rw [hdata]
  have hids : d.ids = frame.ids := by rw [hdata]
  have hbuilt : d.ids.Built := hids ▸ h.wellFormed.ids f frame hget
  have hentries :=
    registered_of_readFrame h.wellFormed hget hflats hcollections hregistry hbuilt hread
  have hnames : (entries.map (·.name)).Nodup := by
    rw [names_eq_of_flats hflats]
    exact h.wellFormed.names f frame hget
  have hrestored := readFrame_restored h₂.wellFormed hbuilt hcollections (hids ▸ hentries)
    hnames hread
  rcases hrestored with ⟨frame₁, hframe₁, -, -, hslots⟩
  cases (frame_eq_ok_iff.1 hframe').symm.trans hframe₁
  have hwell₃ : WellFormed s₃ := by
    have hchanges := readFrame_changes h₂.wellFormed hbuilt registry config
    rw [hread] at hchanges
    exact hchanges.wellFormed h₂.wellFormed
  exact ⟨entries, h.wellFormed, hwell₃, ⟨f, hget⟩, ⟨f', hframe₁⟩, hflats, hslots⟩

/-- Whenever a frame is written and read back, the frame that is read has exactly the links of the
frame that was written, or an address that was stored for one of these does not lead to its target
within the frame. -/
theorem readFrame_leadsTo_iff (h : Reachable s) (hframe : s.frame f = .ok frame)
    (hwrite : (writeFrame f s).1 = .ok d) (hregistry : Recognizes registry s frame)
    (h₂ : Reachable s₂) (hread : readFrame d registry config s₂ = (.ok f', s₃))
    (hframe' : s₃.frame f' = .ok frame') :
    (∀ name path name' i,
      s₃.LeadsTo frame' name path name' i ↔ s.LeadsTo frame name path name' i) ↔
      s.IsFaithful frame := by
  rcases mirrors_of_readFrame h hframe hwrite hregistry h₂ hread hframe' with ⟨entries, hmirrors⟩
  constructor
  · intro hlinks
    refine hmirrors.isFaithful_of_leadsTo ?_
    intro name path name' i
    exact (hlinks name path name' i).1
  · intro hfaithful name path name' i
    exact hmirrors.leadsTo_iff hfaithful name path name' i

/-! ## A frame whose link is redirected -/

/-- Objects with a payload of one byte that lead to others of their type. -/
def nodeType : DataType where
  name := "Node"
  payload := .u8
  element := .u8
  toMany := [⟨"next", "Node"⟩]
  toOne := []
  members := []

/-- A new collection with one object. -/
def withNode (payload : UInt8) (s : Store) : Store :=
  (create nodeType s.collections.next payload (newCollection nodeType false {} s).2).2

/-- A frame whose object in `sources` leads to an object of a collection that was taken out of the
frame, and whose name `targets` another collection has since then. -/
def redirectedStore : Store :=
  let linked := (addRelated (t := nodeType) ⟨⟨⟨1⟩⟩⟩ 0 ⟨0⟩ (withNode 6 (withNode 5 .empty))).2
  let framed := (put 0 "sources" 1 (put 0 "targets" 0 (newFrame {} linked).2).2).2
  (put 0 "targets" 2 (withNode 7 (take nodeType 0 "targets" framed).2)).2

def redirectedFrame : Frame :=
  (redirectedStore.frames.get? 0).get (by decide +kernel)

/-- What the frame is written to. -/
def redirectedData : FrameData :=
  (writeFrame 0 redirectedStore).1.toOption.get (by decide +kernel)

/-- The store in which the frame was read back. -/
def readBackStore : Store :=
  (readFrame redirectedData ⟨[nodeType]⟩ {} redirectedStore).2

def readBackFrame : Frame :=
  (readBackStore.frames.get? 1).get (by decide +kernel)

theorem reachable_withNode (payload : UInt8) (h : Reachable s)
    (hloose : (newCollection nodeType false {} s).2.isLoose s.collections.next = true) :
    Reachable (withNode payload s) := by
  have hnew : Reachable (newCollection nodeType false {} s).2 :=
    h.step (.newCollection nodeType false {})
  exact hnew.step (.create nodeType _ payload hloose)

theorem reachable_redirectedStore : Reachable redirectedStore := by
  have hfirst := reachable_withNode 5 .empty (by decide +kernel)
  have hsecond := reachable_withNode 6 hfirst (by decide +kernel)
  have hlinked := hsecond.step (.addRelated (t := nodeType) ⟨⟨⟨1⟩⟩⟩ 0 ⟨0⟩)
  have htargets := (hlinked.step (.newFrame {})).step (.put 0 "targets" 0 (by decide +kernel))
  have hframed := htargets.step (.put 0 "sources" 1 (by decide +kernel))
  have htaken := hframed.step (.take nodeType 0 "targets")
  have hthird := reachable_withNode 7 htaken (by decide +kernel)
  exact hthird.step (.put 0 "targets" 2 (by decide +kernel))

theorem recognizes_redirectedFrame :
    Recognizes ⟨[nodeType]⟩ redirectedStore redirectedFrame := by
  intro slot hslot col hcol t hfound
  have htypes : ∀ slot ∈ redirectedFrame.slots,
      (redirectedStore.collections.get? slot.2).all (·.type = nodeType) = true := by
    decide +kernel
  have hcollection := htypes slot hslot
  rw [hcol] at hcollection
  have htype : col.type = nodeType := of_decide_eq_true hcollection
  have hknown : t ∈ [nodeType] := List.mem_of_find?_eq_some hfound
  rw [htype]
  exact List.mem_singleton.1 hknown

/-- The link comes back as one to the object of the other collection, though it never led there. -/
theorem readFrame_leadsTo_iff_redirected :
    (writeFrame 0 redirectedStore).1 = .ok redirectedData ∧
      readFrame redirectedData ⟨[nodeType]⟩ {} redirectedStore = (.ok 1, readBackStore) ∧
      readBackStore.LeadsTo readBackFrame "sources" (.toMany 0 0 0) "targets" 0 ∧
      ¬ redirectedStore.LeadsTo redirectedFrame "sources" (.toMany 0 0 0) "targets" 0 ∧
      ¬ redirectedStore.IsFaithful redirectedFrame := by
  have hframe : redirectedStore.frame 0 = .ok redirectedFrame :=
    frame_eq_ok_iff.2 (Option.some_get _).symm
  have hframe' : readBackStore.frame 1 = .ok readBackFrame :=
    frame_eq_ok_iff.2 (Option.some_get _).symm
  have hwrite : (writeFrame 0 redirectedStore).1 = .ok redirectedData :=
    eq_ok_of_toOption (Option.some_get _).symm
  have hread : readFrame redirectedData ⟨[nodeType]⟩ {} redirectedStore =
      (.ok 1, readBackStore) := by
    have hkey : (readFrame redirectedData ⟨[nodeType]⟩ {} redirectedStore).1 = .ok 1 := by
      decide +kernel
    rw [readBackStore, ← hkey, Prod.eta]
  have hback : readBackStore.LeadsTo readBackFrame "sources" (.toMany 0 0 0) "targets" 0 :=
    ⟨4, by decide +kernel, by decide +kernel⟩
  have hlive : ¬ redirectedStore.LeadsTo redirectedFrame "sources" (.toMany 0 0 0) "targets" 0 := by
    rintro ⟨k, htarget, hobject⟩
    have htaken : redirectedStore.targetIn redirectedFrame "sources" (.toMany 0 0 0) = some 0 := by
      decide +kernel
    have hheld : redirectedStore.objectIn redirectedFrame "targets" 0 = some 2 := by
      decide +kernel
    cases (htaken.symm.trans htarget).trans (hobject.symm.trans hheld)
  have hlinks := readFrame_leadsTo_iff reachable_redirectedStore hframe hwrite
    recognizes_redirectedFrame reachable_redirectedStore hread hframe'
  refine ⟨hwrite, hread, hback, hlive, ?_⟩
  intro hfaithful
  exact hlive ((hlinks.2 hfaithful "sources" (.toMany 0 0 0) "targets" 0).1 hback)

end EventModel.Store
