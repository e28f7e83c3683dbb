import EventModel.Proofs.Store.Closed
import EventModel.Proofs.Store.ReadBack
import EventModel.Proofs.Store.View
import EventModel.Proofs.Store.WrittenBack

/-!
# The round trip of a frame

A closed frame is written, and whatever is written can be read into any store by a registry that has
the types of its collections. The frame that is read shows what the frame that was written shows,
and is written to the same data again (`frame_roundTrip`).
-/

namespace EventModel.Store

variable {s s' s₂ s₃ : Store} {f f' : FrameKey} {frame frame' : Frame} {d : FrameData}
  {registry : Registry} {config : Config} {entries : List FlatCollection} {k k' : ObjectKey}

/-- Counterparts have the same address. -/
theorem Counterpart.linkId_eq (hk : Counterpart s s' frame frame' k k') :
    s'.linkId k' = s.linkId k := by
  rcases hk with ⟨e, c, c', i, hpairs, ⟨o, ho, howned⟩, ⟨o', ho', howned'⟩⟩
  rcases hpairs.flat.exists_collection with ⟨col, hcol, hid⟩
  rcases hpairs.restored.exists_collection with ⟨col', hcol', hid'⟩
  rw [linkId_of_owned ho howned, linkId_of_owned ho' howned', addressOf_of_owned howned hcol,
    addressOf_of_owned howned' hcol', hid, hid']

/-! ## The mirror of a closed frame -/

section Mirror

variable (hmirrors : Mirrors s s' frame frame' entries) (hclosed : s.IsClosed frame)

include hmirrors hclosed

/-- The address of an object of the frame finds its counterpart in the mirror. -/
theorem Mirrors.counterpart_of_linkId {type : String} {id : ObjectId} (hk : s.IsHeldIn frame k)
    (hid : s.linkId k = .ok id) (hk' : s'.Resolves frame'.resolver type id k') :
    Counterpart s s' frame frame' k k' := by
  rcases hmirrors.held with ⟨f, hframe⟩
  have hback := hk.resolveObject hmirrors.wellFormed hframe hclosed.hasPositions hid
  exact hmirrors.counterpart_of_resolves (linkId_eq_ok hid) hback hk'.object

theorem Mirrors.resembles {t : DataType} {number : CollectionId} {storage : Storage}
    {origin : Option (Origin t)} {extents : Extents t} {i : Nat} {body body' : Body t}
    {row : Row t} {slot : String × CollectionKey} (hslot : slot ∈ frame.slots)
    (hstands : s.Stands slot.2 t number storage origin) (hlists : s.ListsAt slot.2 i k)
    (hrow : s.Flattens origin extents i k body row)
    (hrestores : s'.Restores frame'.resolver k' row body') :
    Resembles s s' frame frame' k k' body body' where
  payload := hrestores.payload.trans hrow.payload
  members := hrestores.members.trans hrow.members
  toMany r := by
    rcases hclosed.related_of_flattens hmirrors.wellFormed hslot hstands hlists hrow r
      with ⟨ks, hks, hids⟩
    rcases hrestores.toMany r with ⟨ks', hks', hresolves⟩
    refine ⟨ks, ks', hks, hks', (forall₂_join hids hresolves.flip).imp ?_⟩
    rintro k₁ k₁' ⟨id, -, ⟨hheld, hid⟩, hk₁'⟩
    exact hmirrors.counterpart_of_linkId hclosed hheld hid hk₁'
  toOne r := by
    rcases hclosed.single_of_flattens hslot hstands hlists hrow r
      with ⟨hnone, hid⟩ | ⟨k₁, hsome, hheld, hid⟩
    · rcases hrestores.toOne r with ⟨-, hnone'⟩ | ⟨k₁', -, hk₁'⟩
      · exact .inl ⟨hnone, hnone'⟩
      · have htracked := hk₁'.tracked
        rw [hid] at htracked
        cases htracked
    · rcases hrestores.toOne r with ⟨huntracked, -⟩ | ⟨k₁', hsome', hk₁'⟩
      · rw [((singleId_eq_ok_of_some hsome).1 (hrow.toOne r)).2] at huntracked
        cases huntracked
      · have hcounterpart := hmirrors.counterpart_of_linkId hclosed hheld hid hk₁'
        exact .inr ⟨k₁, k₁', hsome, hsome', hcounterpart⟩

section Collections

variable {t : DataType} {c c' : CollectionKey} {name : String} {number : CollectionId}
  {origin : Option (Origin t)} (hslot : (name, c) ∈ frame.slots)

include hslot

/-- Objects that were restored from the rows of others have the same view. -/
theorem Mirrors.viewObjects_agree {keys keys' : List ObjectKey} {rows : List (Row t)}
    (hstands : s.Stands c t number (.owned keys.toArray) origin)
    (hrows : s.FlattensAll origin (.zero t) 0 keys rows) (hlength : keys'.length = rows.length)
    (hobjects : ∀ (i : Nat) k' row, keys'[i]? = some k' → rows[i]? = some row →
      ∃ body, s'.objects.get? k' = some ⟨t, .owned c' i, body⟩ ∧
        s'.Restores frame'.resolver k' row body) :
    List.Forall₂ (fun k k' => Agree (s.viewObject frame t k) (s'.viewObject frame' t k'))
      keys keys' := by
  refine List.forall₂_iff_get.2 ⟨hrows.length_eq.trans hlength.symm, ?_⟩
  intro i hi hi'
  have hk : keys[i]? = some keys[i] := List.getElem?_eq_getElem hi
  have hk' : keys'[i]? = some keys'[i] := List.getElem?_eq_getElem hi'
  rcases hrows.getElem?_of_key hk with ⟨row, extents, body, hrow, hflattens⟩
  rw [Nat.zero_add] at hflattens
  rcases hobjects i keys'[i] row hk' hrow with ⟨body', ho', hrestores⟩
  rcases hstands.collection with ⟨col, hcol, -, -, hstorage⟩
  have hlists : s.ListsAt c i keys[i] := ⟨col, keys.toArray, hcol, hstorage, by simp⟩
  exact hmirrors.viewObject_agree hflattens.read (body_eq_ok_iff.2 ⟨_, ho', by simp⟩)
    (hmirrors.resembles hclosed hslot hstands hlists hflattens hrestores)

/-- The places of a subset collection lead to counterparts of what they lead to in the mirror. -/
theorem Mirrors.exists_counterparts {slots : List Slot} {ids : List ObjectId}
    {ks' : List ObjectKey} (hstands : s.Stands c t number (.subset slots.toArray) origin)
    (hids : List.Forall₂ (fun slot id => s.slotId slot = .ok id) slots ids)
    (hslots : List.Forall₂ (s'.ResolvesSlot frame'.resolver t) ids ks') :
    ∃ ks, slots = ks.map Slot.linked ∧
      List.Forall₂ (Counterpart s s' frame frame') ks ks' := by
  rcases hmirrors.held with ⟨f, hframe⟩
  have hplaces : List.Forall₂ (fun slot k' => ∃ k, slot = .linked k ∧
      Counterpart s s' frame frame' k k') slots ks' := by
    have hjoin := forall₂_join ((List.forall₂_and_left slots ids).2 ⟨fun _ h => h, hids⟩)
      hslots.flip
    refine hjoin.imp ?_
    rintro slot k' ⟨id, -, ⟨hplace, hid⟩, hk', -⟩
    rcases IsClosed.exists_of_slotId hmirrors.wellFormed hframe hclosed hslot hstands hplace hid
      with ⟨k, rfl, hheld, hlink⟩
    exact ⟨k, rfl, hmirrors.counterpart_of_linkId hclosed hheld hlink hk'⟩
  clear hstands hids hslots
  induction hplaces with
  | nil => exact ⟨[], rfl, .nil⟩
  | cons hhead _ ih =>
    rcases hhead with ⟨k, rfl, hk⟩
    rcases ih with ⟨ks, rfl, hks⟩
    exact ⟨k :: ks, rfl, .cons hk hks⟩

end Collections

variable {e : FlatCollection} {c c' : CollectionKey}

/-- The collections of a pair have the same view. -/
theorem Mirrors.viewCollection_agree (hpairs : Pairs s s' frame frame' e c c') :
    Agree (s.viewCollection frame (e.name, c)) (s'.viewCollection frame' (e.name, c')) := by
  rcases hpairs with ⟨hslot, -, hflat, hrestored⟩
  rcases e with ⟨name, number, t, flat⟩
  dsimp only at hslot hflat hrestored ⊢
  cases hflat with
  | owned hstands hrows =>
    cases hrestored with
    | owned hstands' hlength hobjects =>
      have hobjects := hmirrors.viewObjects_agree hclosed hslot hstands hrows hlength hobjects
      rcases agree_mapM hobjects with ⟨views, hviews, hviews'⟩
      exact ⟨_, viewCollection_owned hstands hviews name,
        viewCollection_owned hstands' hviews' name⟩
  | subset hstands hids =>
    cases hrestored with
    | subset hstands' hslots hother =>
      rcases hmirrors.exists_counterparts hclosed hslot hstands hids hslots with ⟨ks, rfl, hks⟩
      rcases agree_mapM (hks.imp fun _ _ hk => hmirrors.siteOf_agree hk)
        with ⟨sites, hsites, hsites'⟩
      exact ⟨_, viewCollection_subset hstands hsites name,
        viewCollection_subset hstands' hsites' name⟩

/-- A closed frame and its mirror have the same view. -/
theorem Mirrors.viewFrame_agree : Agree (s.viewFrame frame) (s'.viewFrame frame') := by
  refine agree_mapM (hmirrors.forall₂_pairs.imp ?_)
  rintro ⟨name, c⟩ ⟨name', c'⟩ ⟨hname, e, he, hpairs⟩
  dsimp only at hname he
  subst hname he
  exact hmirrors.viewCollection_agree hclosed hpairs

/-- The collections of the mirror have the flat forms that they were restored from. -/
theorem Mirrors.hasFlat_restored (hpairs : Pairs s s' frame frame' e c c') :
    s'.HasFlat c' e.type e.id e.flat := by
  rcases hmirrors.held with ⟨f, hframe⟩
  have hwell := hmirrors.wellFormed
  have hcanonical := IsClosed.isCanonical hwell hframe hclosed hpairs.slot hpairs.flat
  refine hpairs.restored.hasFlat_of_stores hpairs.flat.isTiled hcanonical ?_
  -- an address that was stored for an object leads to its counterpart, which has the same address
  intro id hid type k' hk'
  rcases IsClosed.exists_of_stores hwell hframe hclosed hpairs.slot hpairs.flat hid
    with rfl | ⟨k, hheld, hlink⟩
  · cases hk'.tracked
  · rw [(hmirrors.counterpart_of_linkId hclosed hheld hlink hk').linkId_eq, hlink]

/-- The mirror is flattened to what it was restored from. -/
theorem Mirrors.flats_restored : List.Forall₂ (Names s'.HasFlat) frame'.slots entries := by
  have hslots := (List.forall₂_and_left frame'.slots entries).2
    ⟨fun _ hslot => hslot, hmirrors.restored⟩
  have hentries := (List.forall₂_and_left entries frame'.slots).2 ⟨fun _ he => he, hslots.flip⟩
  refine hentries.flip.imp ?_
  rintro ⟨name', c'⟩ e ⟨he, hslot', hname', hrestored⟩
  rcases exists_right_of_forall₂ hmirrors.flats.flip he with ⟨⟨name, c⟩, hslot, hname, hflat⟩
  cases (hname : name = e.name)
  cases (hname' : name' = e.name)
  exact ⟨rfl, hmirrors.hasFlat_restored hclosed ⟨hslot, hslot', hflat, hrestored⟩⟩

end Mirror

/-! ## Writing and reading -/

/-- The registry has the type of every collection of the frame under its name. -/
def Registers (registry : Registry) (s : Store) (frame : Frame) : Prop :=
  ∀ slot ∈ frame.slots, ∀ col ∈ s.collections.get? slot.2,
    registry.find? col.type.name = some col.type

instance : Decidable (Registers registry s frame) :=
  inferInstanceAs (Decidable (∀ slot ∈ frame.slots, ∀ col ∈ s.collections.get? slot.2,
    registry.find? col.type.name = some col.type))

theorem Registers.registered (hregistry : Registers registry s frame) (h : WellFormed s)
    (hframe : s.frames.get? f = some frame)
    (hflats : List.Forall₂ (Names s.HasFlat) frame.slots entries) :
    ∀ e ∈ entries, Registered registry frame.ids e := by
  intro e he
  rcases exists_right_of_forall₂ hflats.flip he with ⟨slot, hslot, hnames⟩
  refine hnames.registered h hframe hslot ?_ ?_
  · intro slot' hslot' col hcol t hfound
    exact Option.some.inj (hfound.symm.trans (hregistry slot' hslot' col hcol))
  · rcases hnames.collection.flatOf with ⟨config', storage, generation, prepared, origin, hcol, -⟩
    exact ⟨_, hregistry slot hslot _ hcol⟩

theorem Reachable.readFrame (h : Reachable s) (hread : readFrame d registry config s = (.ok f, s'))
    (hids : d.ids.Built) : Reachable s' := by
  have hstep := h.step (.readFrame d registry config hids)
  rwa [hread] at hstep

/-- The frame that is read shows what the frame that was written shows, and is written to the same
data. -/
structure ReadsBack (s s' : Store) (frame : Frame) (f' : FrameKey) (d : FrameData) : Prop where
  frame : ∃ frame', s'.frame f' = .ok frame' ∧ frame'.ids = frame.ids ∧
    frame'.parameters = frame.parameters ∧ Agree (s.viewFrame frame) (s'.viewFrame frame')
  written : (writeFrame f' s').1 = .ok d

theorem exists_writeFrame (h : Reachable s) (hframe : s.frame f = .ok frame)
    (hclosed : s.IsClosed frame) : ∃ d, (writeFrame f s).1 = .ok d := by
  rcases IsClosed.exists_flats h.wellFormed (frame_eq_ok_iff.1 hframe) hclosed with ⟨entries, hflats⟩
  exact ⟨_, (writeFrame_eq_ok_iff_names h).2 ⟨frame, entries, hframe, hflats, rfl⟩⟩

/-- What a closed frame is written to is read into every store. -/
theorem exists_readsBack (h : Reachable s) (hframe : s.frame f = .ok frame)
    (hclosed : s.IsClosed frame) (hregistry : Registers registry s frame)
    (hwrite : (writeFrame f s).1 = .ok d) (h₂ : Reachable s₂) (config : Config) :
    ∃ f' s₃, readFrame d registry config s₂ = (.ok f', s₃) ∧ Reachable s₃ ∧
      ReadsBack s s₃ frame f' d := by
  have hget := frame_eq_ok_iff.1 hframe
  have hwell := h.wellFormed
  have hids := hwell.ids f frame hget
  rcases (writeFrame_eq_ok_iff_names h).1 hwrite with ⟨_, entries, hsame, hflats, rfl⟩
  cases hframe.symm.trans hsame
  have hregistered := hregistry.registered hwell hget hflats
  have hnames : (entries.map (·.name)).Nodup := by
    rw [names_eq_of_flats hflats]
    exact hwell.names f frame hget
  have hdata : (FrameData.mk frame.ids (entries.map FlatCollection.data)
      frame.parameters).collections = entries.map FlatCollection.data := rfl
  rcases exists_readFrame h₂.wellFormed hids hdata hregistered hnames
    (fun s₁ slots hwaits e he => IsClosed.answers hwell hget hclosed hflats hwaits he) config
    with ⟨f', s₃, hread⟩
  have h₃ := h₂.readFrame hread hids
  rcases readFrame_restored h₂.wellFormed hids hdata hregistered hnames hread
    with ⟨frame', hget', hids', hparameters, hrestored⟩
  have hmirrors : Mirrors s s₃ frame frame' entries :=
    ⟨hwell, h₃.wellFormed, ⟨f, hget⟩, ⟨f', hget'⟩, hflats, hrestored⟩
  have hframe' := frame_eq_ok_iff.2 hget'
  refine ⟨f', s₃, hread, h₃,
    ⟨frame', hframe', hids', hparameters, hmirrors.viewFrame_agree hclosed⟩, ?_⟩
  refine (writeFrame_eq_ok_iff_names h₃).2
    ⟨frame', entries, hframe', hmirrors.flats_restored hclosed, ?_⟩
  rw [hids', hparameters]

/-- A closed frame is written, and what is written is read into every store, verified or not, to a
frame with the same names, numbers and parameters. Collection by collection, the types, the modes
and the objects of both frames are the same, their links lead to the same places, and both frames
are written to the same data. -/
theorem frame_roundTrip (h : Reachable s) (hframe : s.frame f = .ok frame)
    (hclosed : s.IsClosed frame) (hregistry : Registers registry s frame) :
    ∃ d, (writeFrame f s).1 = .ok d ∧ ∀ s₂, Reachable s₂ → ∀ config : Config,
      ∃ f' s₃, readFrame d registry config s₂ = (.ok f', s₃) ∧ ReadsBack s s₃ frame f' d := by
  rcases exists_writeFrame h hframe hclosed with ⟨d, hwrite⟩
  refine ⟨d, hwrite, ?_⟩
  intro s₂ h₂ config
  rcases exists_readsBack h hframe hclosed hregistry hwrite h₂ config with ⟨f', s₃, hread, -, hback⟩
  exact ⟨f', s₃, hread, hback⟩

/-! ## A frame with links of all kinds -/

/-- A collection of two objects that lead to themselves and to each other, one of them by a to-one
relation, and a subset collection that points at one of them. -/
def linkedStore : Store :=
  let founded := (newCollection meshType false {} (newFrame {} .empty).2).2
  let filled := (create meshType 0 (6 : UInt8) (create meshType 0 (5 : UInt8) founded).2).2
  let self := (addRelated (t := meshType) ⟨⟨⟨0⟩⟩⟩ 0 ⟨0⟩ filled).2
  let both := (addRelated (t := meshType) ⟨⟨⟨0⟩⟩⟩ 0 ⟨1⟩ self).2
  let paired := (setSingle (t := meshType) ⟨⟨⟨1⟩⟩⟩ 0 ⟨0⟩ both).2
  let marked := (pushMember (t := meshType) ⟨⟨⟨1⟩⟩⟩ 0 () paired).2
  let picked := (push (t := meshType) 1 ⟨⟨1⟩⟩ (newCollection meshType true {} marked).2).2
  (put 0 "all" 0 (put 0 "picked" 1 picked).2).2

def linkedFrame : Frame :=
  (linkedStore.frames.get? 0).get (by decide +kernel)

theorem reachable_linkedStore : Reachable linkedStore := by
  have hfounded := (Reachable.empty.step (.newFrame {})).step (.newCollection meshType false {})
  have hfirst := hfounded.step (.create meshType 0 (5 : UInt8) (by decide +kernel))
  have hfilled := hfirst.step (.create meshType 0 (6 : UInt8) (by decide +kernel))
  have hself := hfilled.step (.addRelated (t := meshType) ⟨⟨⟨0⟩⟩⟩ 0 ⟨0⟩)
  have hboth := hself.step (.addRelated (t := meshType) ⟨⟨⟨0⟩⟩⟩ 0 ⟨1⟩)
  have hpaired := hboth.step (.setSingle (t := meshType) ⟨⟨⟨1⟩⟩⟩ 0 ⟨0⟩)
  have hmarked := hpaired.step (.pushMember (t := meshType) ⟨⟨⟨1⟩⟩⟩ 0 ())
  have hempty := hmarked.step (.newCollection meshType true {})
  have hpicked := hempty.step (.push (t := meshType) 1 ⟨⟨1⟩⟩ (by decide +kernel))
  have hframed := hpicked.step (.put 0 "picked" 1 (by decide +kernel))
  exact hframed.step (.put 0 "all" 0 (by decide +kernel))

theorem frame_roundTrip_linkedFrame :
    linkedStore.IsClosed linkedFrame ∧ linkedFrame.names = ["picked", "all"] ∧
      ∃ d, (writeFrame 0 linkedStore).1 = .ok d ∧ ∀ config : Config,
        ∃ f' s', readFrame d ⟨[meshType]⟩ config linkedStore = (.ok f', s') ∧
          ReadsBack linkedStore s' linkedFrame f' d := by
  have hframe : linkedStore.frame 0 = .ok linkedFrame :=
    frame_eq_ok_iff.2 (Option.some_get _).symm
  have hclosed : linkedStore.IsClosed linkedFrame := by decide +kernel
  have hregistry : Registers ⟨[meshType]⟩ linkedStore linkedFrame := by decide +kernel
  rcases frame_roundTrip reachable_linkedStore hframe hclosed hregistry with ⟨d, hwrite, hread⟩
  exact ⟨hclosed, by decide +kernel, d, hwrite, hread linkedStore reachable_linkedStore⟩

end EventModel.Store
