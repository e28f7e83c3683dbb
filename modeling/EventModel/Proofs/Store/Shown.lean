import EventModel.Proofs.Store.Located
import EventModel.Proofs.Store.WrittenBack

/-!
# What is shown of a frame that was read

The view of a frame that was read follows from the flat form alone: an object shows the payload and
the members of its row and, for each address in the row, the site that the address locates
(`Fills.exists_viewFrame`). So the order in which a flat form lists its collections does not matter,
nor does the order in which they are resolved (`reading_in_any_order`).
-/

namespace EventModel

variable {flats flats' : List FlatCollection} {t : DataType} {id : ObjectId} {site site' : Site}

/-- The address is that of an object at a site. -/
def Addresses (flats : List FlatCollection) (id : ObjectId) (site : Site) : Prop :=
  ∃ t, Locates flats t id site

/-- The view shows what a row says. -/
structure ShowsRow (flats : List FlatCollection) (row : Row t) (view : ObjectView t) : Prop where
  payload : view.payload = Record.payload row.record
  members : view.members = row.members
  toMany : ∀ r : Fin t.toMany.length, List.Forall₂ (Addresses flats) row.toMany[r] view.toMany[r]
  toOne : ∀ r : Fin t.toOne.length, (row.toOne[r].isUntracked = true ∧ view.toOne[r] = none) ∨
    ∃ site, view.toOne[r] = some site ∧ Addresses flats row.toOne[r] site

/-- The view shows what a flat form says. -/
inductive ShowsFlat (flats : List FlatCollection) : Flat t → ContentView t → Prop
  | owned {rows : List (Row t)} {views : List (ObjectView t)}
      (h : List.Forall₂ (ShowsRow flats) rows views) : ShowsFlat flats (.owned rows) (.owned views)
  | subset {ids : List ObjectId} {sites : List Site}
      (h : List.Forall₂ (Addresses flats) ids sites) : ShowsFlat flats (.subset ids) (.subset sites)

/-- The view shows what a flat collection says. -/
inductive Shows (flats : List FlatCollection) (e : FlatCollection) : CollectionView → Prop
  | intro {content : ContentView e.type} (h : ShowsFlat flats e.flat content) :
      Shows flats e ⟨e.name, e.id, e.type, content⟩

/-! ## One view for each flat form -/

theorem Addresses.of_perm (h : Addresses flats id site) (hperm : flats.Perm flats') :
    Addresses flats' id site :=
  h.imp fun _ hlocates => hlocates.of_perm hperm

theorem ShowsRow.of_perm {row : Row t} {view : ObjectView t} (h : ShowsRow flats row view)
    (hperm : flats.Perm flats') : ShowsRow flats' row view where
  payload := h.payload
  members := h.members
  toMany r := (h.toMany r).imp fun _ _ hsite => hsite.of_perm hperm
  toOne r := (h.toOne r).imp_right fun ⟨site, hview, hsite⟩ => ⟨site, hview, hsite.of_perm hperm⟩

theorem Shows.of_perm {e : FlatCollection} {view : CollectionView} (h : Shows flats e view)
    (hperm : flats.Perm flats') : Shows flats' e view := by
  cases h with
  | @intro content hcontent =>
    refine .intro ?_
    rcases e with ⟨name, number, t, flat⟩
    dsimp only at hcontent ⊢
    cases hcontent with
    | owned hrows => exact .owned (hrows.imp fun _ _ hrow => hrow.of_perm hperm)
    | subset hids => exact .subset (hids.imp fun _ _ hsite => hsite.of_perm hperm)

section Unique

variable (hnumbers : (flats.map (·.id)).Nodup)

include hnumbers

/-- An address locates one site at most. -/
theorem Addresses.unique (h : Addresses flats id site) (h' : Addresses flats id site') : site = site' := by
  rcases h with ⟨t, hmem, hposition, -⟩
  rcases h' with ⟨t', hmem', hposition', -⟩
  cases List.inj_on_of_nodup_map hnumbers hmem hmem' rfl
  cases hposition.symm.trans hposition'
  rfl

theorem addresses_unique {ids : List ObjectId} {sites sites' : List Site}
    (h : List.Forall₂ (Addresses flats) ids sites) (h' : List.Forall₂ (Addresses flats) ids sites') :
    sites = sites' := by
  rw [← List.forall₂_eq_eq_eq]
  refine (forall₂_join h.flip h'.flip).imp ?_
  rintro site site' ⟨id, -, hsite, hsite'⟩
  exact Addresses.unique hnumbers hsite hsite'

theorem ShowsRow.unique {row : Row t} {view view' : ObjectView t} (h : ShowsRow flats row view)
    (h' : ShowsRow flats row view') : view = view' := by
  have htoMany : view.toMany = view'.toMany := by
    refine Vector.ext ?_
    intro r hr
    exact addresses_unique hnumbers (h.toMany ⟨r, hr⟩) (h'.toMany ⟨r, hr⟩)
  have htoOne : view.toOne = view'.toOne := by
    refine Vector.ext ?_
    intro r hr
    rcases h.toOne ⟨r, hr⟩ with ⟨huntracked, hnone⟩ | ⟨site, hsome, t, hsite⟩
    · rcases h'.toOne ⟨r, hr⟩ with ⟨-, hnone'⟩ | ⟨site', -, t, hsite'⟩
      · exact hnone.trans hnone'.symm
      · rcases hsite' with ⟨-, hposition, -⟩
        rw [ObjectId.isUntracked_of_position? hposition] at huntracked
        cases huntracked
    · rcases h'.toOne ⟨r, hr⟩ with ⟨huntracked, -⟩ | ⟨site', hsome', hsite'⟩
      · rcases hsite with ⟨-, hposition, -⟩
        rw [ObjectId.isUntracked_of_position? hposition] at huntracked
        cases huntracked
      · rw [Addresses.unique hnumbers ⟨t, hsite⟩ hsite'] at hsome
        exact hsome.trans hsome'.symm
  have hpayload := h.payload.trans h'.payload.symm
  have hmembers := h.members.trans h'.members.symm
  rcases view with ⟨payload, members, toMany, toOne⟩
  cases hpayload
  cases hmembers
  cases htoMany
  cases htoOne
  rfl

/-- A flat collection has one view. -/
theorem Shows.unique {e : FlatCollection} {view view' : CollectionView} (h : Shows flats e view)
    (h' : Shows flats e view') : view = view' := by
  rcases e with ⟨name, number, t, flat⟩
  cases h with
  | @intro content hcontent =>
    cases h' with
    | @intro content' hcontent' =>
      refine congrArg (CollectionView.mk name number t) ?_
      dsimp only at hcontent hcontent'
      cases hcontent with
      | owned hrows =>
        cases hcontent' with
        | owned hrows' =>
          refine congrArg ContentView.owned ?_
          rw [← List.forall₂_eq_eq_eq]
          refine (forall₂_join hrows.flip hrows'.flip).imp ?_
          rintro view view' ⟨row, -, hview, hview'⟩
          exact ShowsRow.unique hnumbers hview hview'
      | subset hids =>
        cases hcontent' with
        | subset hids' => exact congrArg ContentView.subset (addresses_unique hnumbers hids hids')

end Unique

/-- Flat forms in different orders have the same views, in these orders. -/
theorem perm_of_shows {views views' : List CollectionView} (hnumbers : (flats.map (·.id)).Nodup)
    (hperm : flats'.Perm flats) (h : List.Forall₂ (Shows flats) flats views)
    (h' : List.Forall₂ (Shows flats') flats' views') : views'.Perm views := by
  have hshows : List.Forall₂ (Shows flats) flats' views' := h'.imp fun _ _ he => he.of_perm hperm
  rcases List.perm_comp_forall₂ hperm.symm hshows with ⟨ordered, hordered, horder⟩
  have heq : ordered = views := by
    rw [← List.forall₂_eq_eq_eq]
    refine (forall₂_join hordered.flip h.flip).imp ?_
    rintro view view' ⟨e, -, hview, hview'⟩
    exact Shows.unique hnumbers hview hview'
  exact heq ▸ horder.symm

namespace Store

variable {s s' : Store} {frame : Frame} {k : ObjectKey}

/-! ## The view of a frame that was read -/

section View

/-- The resolver finds only objects at the sites that addresses locate. -/
structure FindsSites (s : Store) (frame : Frame) (flats : List FlatCollection) : Prop where
  wellFormed : WellFormed s
  held : ∃ f, s.frames.get? f = some frame
  shapes : List.Forall₂ (Names s.HasShape) frame.slots flats

variable (h : s.FindsSites frame flats)

include h

/-- An object that was found for an address stands at the site that the address locates. -/
theorem FindsSites.exists_site {type : String}
    (havoids : s.AvoidsSubset frame.resolver id)
    (hk : s.Resolves frame.resolver type id k) :
    ∃ site, s.HasSite frame k site ∧ Addresses flats id site := by
  rcases h.held with ⟨f, hframe⟩
  rw [resolver_eq_resolverOf h.wellFormed hframe] at havoids hk
  rcases exists_locates h.shapes h.wellFormed havoids hk
    with ⟨u, site, c, -, hlocates, hslot, hkeeps, -⟩
  exact ⟨site, hkeeps.hasSite h.wellFormed h.held hslot, u, hlocates⟩

theorem FindsSites.exists_sites {type : String} {ids : List ObjectId} {ks : List ObjectKey}
    (havoids : ∀ id ∈ ids, id.isUntracked = false → s.AvoidsSubset frame.resolver id)
    (hks : List.Forall₂ (s.Resolves frame.resolver type) ids ks) :
    ∃ sites, List.Forall₂ (s.HasSite frame) ks sites ∧ List.Forall₂ (Addresses flats) ids sites := by
  refine exists_forall₂_between (((List.forall₂_and_left _ _).2 ⟨havoids, hks⟩).flip.imp ?_)
  rintro k id ⟨hid, hk⟩
  exact h.exists_site (hid hk.tracked) hk

/-- A restored object shows what its row says. -/
theorem FindsSites.exists_isView {row : Row t} {body : Body t}
    (hbody : s.body t k = .ok body) (hrestores : s.Restores frame.resolver k row body)
    (htoMany : ∀ r : Fin t.toMany.length, ∀ id ∈ row.toMany[r], id.isUntracked = false →
      s.AvoidsSubset frame.resolver id)
    (htoOne : ∀ r : Fin t.toOne.length, row.toOne[r].isUntracked = false →
      s.AvoidsSubset frame.resolver row.toOne[r]) :
    ∃ view, s.IsView frame k view ∧ ShowsRow flats row view := by
  have hmany : ∀ r : Fin t.toMany.length, ∃ sites,
      (∃ ks, s.links k body r = .ok ks ∧ List.Forall₂ (s.HasSite frame) ks sites) ∧
        List.Forall₂ (Addresses flats) row.toMany[r] sites := by
    intro r
    rcases hrestores.toMany r with ⟨ks, hks, hresolves⟩
    rcases h.exists_sites (htoMany r) hresolves with ⟨sites, hsites, hall⟩
    exact ⟨sites, ⟨ks, hks, hsites⟩, hall⟩
  have hone : ∀ r : Fin t.toOne.length, ∃ place,
      Option.Rel (s.HasSite frame) body.toOne[r] place ∧
        ((row.toOne[r].isUntracked = true ∧ place = none) ∨
          ∃ site, place = some site ∧ Addresses flats row.toOne[r] site) := by
    intro r
    rcases hrestores.toOne r with ⟨huntracked, hnone⟩ | ⟨k', hsome, hk'⟩
    · rw [hnone]
      exact ⟨none, .none, .inl ⟨huntracked, rfl⟩⟩
    · rcases h.exists_site (htoOne r hk'.tracked) hk' with ⟨site, hsite, haddress⟩
      rw [hsome]
      exact ⟨some site, .some hsite, .inr ⟨site, rfl, haddress⟩⟩
  choose many hmany hmanyShows using hmany
  choose one hone honeShows using hone
  refine ⟨⟨body.payload, body.members, Vector.ofFn many, Vector.ofFn one⟩,
    isView_of_links hbody rfl rfl ?_ ?_, hrestores.payload, hrestores.members, ?_, ?_⟩
  · intro r
    simpa using hmany r
  · intro r
    simpa using hone r
  · intro r
    simpa using hmanyShows r
  · intro r
    simpa using honeShows r

/-- A restored collection shows what its flat form says. -/
theorem FindsSites.exists_viewCollection {slot : String × CollectionKey} {e : FlatCollection}
    (hrestored : Names (s.Restored frame.resolver) slot e)
    (havoids : ∀ id, e.flat.Stores id → id.isUntracked = false →
      s.AvoidsSubset frame.resolver id) :
    ∃ view, s.viewCollection frame slot = .ok view ∧ Shows flats e view := by
  rcases slot with ⟨_, c⟩
  rcases e with ⟨name, number, t, flat⟩
  rcases hrestored with ⟨rfl, hrestored⟩
  dsimp only at hrestored havoids
  cases hrestored with
  | @owned keys rows origin many hstands hlength hobjects =>
    have hviews : List.Forall₂ (fun k row => ∃ view, s.viewObject frame t k = .ok view ∧
        ShowsRow flats row view) keys rows := by
      refine List.forall₂_iff_get.2 ⟨hlength, ?_⟩
      intro i hi hi'
      have hrow : rows[i] ∈ rows := List.getElem_mem hi'
      rcases hobjects i keys[i] rows[i] (List.getElem?_eq_getElem hi) (List.getElem?_eq_getElem hi')
        with ⟨body, ho, hrestores⟩
      have hbody : s.body t keys[i] = .ok body := body_eq_ok_iff.2 ⟨_, ho, by simp⟩
      rcases h.exists_isView hbody hrestores (fun r id hid => havoids id (.toMany hrow r hid))
        fun r => havoids _ (.toOne hrow r) with ⟨view, hview, hshows⟩
      exact ⟨view, viewObject_eq_ok_iff.2 hview, hshows⟩
    rcases exists_mapM_eq_ok hviews with ⟨views, hviews, hall⟩
    exact ⟨_, viewCollection_owned hstands hviews _, .intro (.owned hall)⟩
  | @subset ids ks origin hstands hslots _ =>
    have hsites : List.Forall₂ (fun k id => ∃ site, s.siteOf frame (some k) = .ok site ∧
        Addresses flats id site) ks ids := by
      refine ((List.forall₂_and_left _ _).2 ⟨fun id hid => havoids id (.place hid), hslots⟩).flip.imp ?_
      rintro k id ⟨hid, hk, -⟩
      rcases h.exists_site (hid hk.tracked) hk with ⟨site, hsite, haddress⟩
      exact ⟨site, hsite.site, haddress⟩
    rcases exists_mapM_eq_ok hsites with ⟨sites, hsites, hall⟩
    exact ⟨_, viewCollection_subset hstands hsites _, .intro (.subset hall)⟩

/-- A frame of restored collections shows what their flat forms say. -/
theorem FindsSites.exists_viewFrame
    (hrestored : List.Forall₂ (Names (s.Restored frame.resolver)) frame.slots flats)
    (havoids : ∀ e ∈ flats, ∀ id, e.flat.Stores id → id.isUntracked = false →
      s.AvoidsSubset frame.resolver id) :
    ∃ views, s.viewFrame frame = .ok views ∧ List.Forall₂ (Shows flats) flats views := by
  refine exists_mapM_eq_ok ?_
  refine ((List.forall₂_and_left _ _).2 ⟨havoids, hrestored.flip⟩).flip.imp ?_
  rintro slot e ⟨he, hslot⟩
  exact h.exists_viewCollection hslot he

end View

/-! ## Reading -/

variable {data : FrameData} {registry : Registry} {config : Config} {f : FrameKey}
  {entries : List StoredCollection}

/-- The flat form of what is stored has no addresses but those and untracked ones. -/
theorem mem_ids_of_stores {stored : Stored t} (h : stored.flat.Stores id)
    (htracked : id.isUntracked = false) : id ∈ stored.ids := by
  cases stored with
  | owned contents =>
    cases h with
    | @toMany _ row hrow r _ hid =>
      rcases List.getElem?_of_mem hrow with ⟨i, hi⟩
      rcases Contents.getElem?_rows hi with ⟨record, -, rfl⟩
      refine List.mem_append_left _ (List.mem_flatten.2 ⟨contents.toMany[r], by simp, ?_⟩)
      simp only [Contents.row, getElem_fin, Vector.getElem_ofFn] at hid
      exact List.mem_of_mem_drop (List.mem_of_mem_take hid)
    | @toOne _ row hrow r =>
      rcases List.getElem?_of_mem hrow with ⟨i, hi⟩
      rcases Contents.getElem?_rows hi with ⟨record, -, rfl⟩
      refine List.mem_append_right _ (List.mem_flatten.2 ⟨contents.toOne[r], by simp, ?_⟩)
      simp only [Contents.row, getElem_fin, Vector.getElem_ofFn] at htracked ⊢
      rcases hget : contents.toOne[r.val][i]? with _ | id
      · rw [hget] at htracked
        cases htracked
      · exact List.mem_of_getElem? hget
  | subset ids =>
    cases h with
    | place hid => exact hid

/-- A frame that was read has the id table and the parameters of its flat form and shows what the
flat form says. -/
theorem Fills.exists_viewFrame (h : WellFormed s) (hids : data.ids.Built)
    (havoids : data.AvoidsSubsets) (hfills : Fills registry config data entries)
    (hread : readFrame data registry config s = (.ok f, s')) :
    ∃ frame views, s'.frames.get? f = some frame ∧ frame.ids = data.ids ∧
      frame.parameters = data.parameters ∧ s'.viewFrame frame = .ok views ∧
      List.Forall₂ (Shows (entries.map StoredCollection.flat))
        (entries.map StoredCollection.flat) views := by
  rcases hfills.restored h hids hread with ⟨frame, hframe, hids', hparameters, hrestored⟩
  have hwell : WellFormed s' := by
    have hchanges := readFrame_changes h hids registry config
    rw [hread] at hchanges
    exact hchanges.wellFormed h
  have hshapes : List.Forall₂ (Names s'.HasShape) frame.slots (entries.map StoredCollection.flat) :=
    hrestored.imp fun _ _ he => ⟨he.name, he.collection.hasShape⟩
  have hfinds : s'.FindsSites frame (entries.map StoredCollection.flat) :=
    ⟨hwell, ⟨f, hframe⟩, hshapes⟩
  have hflats : ∀ e ∈ entries.map StoredCollection.flat, ∀ id, e.flat.Stores id →
      id.isUntracked = false → s'.AvoidsSubset frame.resolver id := by
    intro flat hflat id hstores htracked
    rcases List.mem_map.1 hflat with ⟨e, he, rfl⟩
    rw [resolver_eq_resolverOf hwell hframe]
    exact hfills.avoidsSubset havoids hshapes he (mem_ids_of_stores hstores htracked) htracked
  rcases hfinds.exists_viewFrame hrestored hflats with ⟨views, hviews, hshows⟩
  exact ⟨frame, views, hframe, hids', hparameters, hviews, hshows⟩

/-! ## Any order -/

/-- Both flat forms can be read or none of them, and the frames that are read show the same
collections, perhaps in another order. -/
structure ComesOutAlike (registry : Registry) (config : Config) (d d' : FrameData) (s s' : Store) :
    Prop where
  succeeds : (∃ f t, readFrame d registry config s = (.ok f, t)) ↔
    ∃ f t, readFrame d' registry config s' = (.ok f, t)
  shows : ∀ f t f' t', readFrame d registry config s = (.ok f, t) →
    readFrame d' registry config s' = (.ok f', t') →
      ∃ frame frame' views views', t.frames.get? f = some frame ∧ t'.frames.get? f' = some frame' ∧
        frame'.ids = frame.ids ∧ frame'.parameters = frame.parameters ∧
        t.viewFrame frame = .ok views ∧ t'.viewFrame frame' = .ok views' ∧ views'.Perm views

section Reordered

variable {collections : List (String × Buffers)} (hperm : collections.Perm data.collections)

include hperm

theorem avoidsSubsets_of_perm (h : data.AvoidsSubsets) : { data with collections }.AvoidsSubsets :=
  fun entry hentry id hid htracked entry' hentry' =>
    h entry (hperm.mem_iff.1 hentry) id hid htracked entry' (hperm.mem_iff.1 hentry')

/-- Reordered collections hold the same, in another order. -/
theorem Fills.of_perm (hfills : Fills registry config data entries) :
    ∃ ordered, ordered.Perm entries ∧
      Fills registry config { data with collections } ordered := by
  rcases List.perm_comp_forall₂ hperm hfills.takes with ⟨ordered, htakes, hordered⟩
  exact ⟨ordered, hordered, htakes, (hordered.map _).nodup_iff.2 hfills.names⟩

theorem IsReadable.of_perm (h : IsReadable registry config data entries) :
    ∃ ordered, IsReadable registry config { data with collections } ordered := by
  rcases Fills.of_perm hperm h.toFills with ⟨ordered, hordered, hfills⟩
  refine ⟨ordered, hfills, ?_⟩
  intro e he
  exact (h.answered e (hordered.mem_iff.1 he)).of_perm (hordered.symm.map _)

end Reordered

/-- The order of the collections in a flat form does not matter, and neither does the store that it
is read into. -/
theorem comesOutAlike_of_perm {collections : List (String × Buffers)}
    (hperm : collections.Perm data.collections) (hids : data.ids.Built)
    (havoids : data.AvoidsSubsets) (h : WellFormed s) (h' : WellFormed s') :
    ComesOutAlike registry config data { data with collections } s s' where
  succeeds := by
    rw [readFrame_iff h hids havoids,
      @readFrame_iff s' { data with collections } registry config h' hids
        (avoidsSubsets_of_perm hperm havoids)]
    constructor
    · rintro ⟨entries, hentries⟩
      exact hentries.of_perm hperm
    · rintro ⟨entries, hentries⟩
      exact @IsReadable.of_perm { data with collections } registry config entries data.collections
        hperm.symm hentries
  shows := by
    intro f t f' t' hread hread'
    rcases fills_of_readFrame hids hread with ⟨entries, hfills⟩
    rcases Fills.of_perm hperm hfills with ⟨ordered, hordered, hfills'⟩
    rcases hfills.exists_viewFrame h hids havoids hread
      with ⟨frame, views, hframe, hframeIds, hparameters, hviews, hshows⟩
    have havoids' := avoidsSubsets_of_perm hperm havoids
    rcases @Fills.exists_viewFrame s' _ { data with collections } registry config f' ordered h'
      hids havoids' hfills' hread'
      with ⟨frame', views', hframe', hframeIds', hparameters', hviews', hshows'⟩
    refine ⟨frame, frame', views, views', hframe, hframe', hframeIds'.trans hframeIds.symm,
      hparameters'.trans hparameters.symm, hviews, hviews', ?_⟩
    exact perm_of_shows (hfills.numbers hids) (hordered.map _) hshows hshows'

/-- Reading does not depend on the order of collections. If no address in a flat form has the number
of a subset collection, the flat form and any reordering of it can both be read, or neither, and the
frames show the same. If no address for which some collections wait leads to a subset collection, they
can be resolved in any order, with the same store in the end. -/
theorem reading_in_any_order {collections : List (String × Buffers)}
    (hperm : collections.Perm data.collections) (hids : data.ids.Built)
    (havoids : data.AvoidsSubsets) (registry : Registry) (config : Config) (h : Reachable s)
    (h' : Reachable s') {resolver : Resolver} {cs cs' : List CollectionKey} (hcs : cs.Perm cs')
    (hawaits : ∀ c ∈ cs, s.AwaitsNormals resolver c) :
    ComesOutAlike registry config data { data with collections } s s' ∧
      ∀ t, forEach (setReferences resolver) cs s = (.ok (), t) ↔
        forEach (setReferences resolver) cs' s = (.ok (), t) :=
  ⟨comesOutAlike_of_perm hperm hids havoids h.wellFormed h'.wellFormed,
    fun _ => forEach_setReferences_perm hcs h.wellFormed hawaits⟩

/-! ## Collections that lead to each other -/

/-- The numbers of two collections and a selection from them. -/
def twinTable : IdTable :=
  ⟨[("first", ⟨1⟩), ("second", ⟨2⟩), ("chosen", ⟨3⟩)], 4⟩

/-- One object that leads to itself, to the twin and again to itself, and up to the twin. -/
def twinBuffers (own twin : CollectionId) : Buffers where
  type := "Mesh"
  subset := false
  records := .encode meshType.record [((5 : UInt8), #v[⟨0, 3⟩, ⟨0, 0⟩])]
  relations := [.encode .objectId [⟨0, own⟩, ⟨0, twin⟩, ⟨0, own⟩], .encode .objectId [⟨0, twin⟩]]
  members := [.encode .unit []]

/-- Two collections that lead to each other and a selection of their objects. -/
def twinData : FrameData where
  ids := twinTable
  collections := [("first", twinBuffers ⟨1⟩ ⟨2⟩), ("second", twinBuffers ⟨2⟩ ⟨1⟩),
    ("chosen", buffersOfIds meshType [⟨0, ⟨2⟩⟩, ⟨0, ⟨1⟩⟩])]
  parameters := .empty

/-- The two collections, rebuilt without a frame. -/
def twinStore : Store :=
  let first := (rebuild meshType (twinBuffers ⟨1⟩ ⟨2⟩) ⟨1⟩ {} .empty).2
  (rebuild meshType (twinBuffers ⟨2⟩ ⟨1⟩) ⟨2⟩ {} first).2

def twinResolver : Resolver :=
  twinStore.resolverOf [0, 1]

theorem ofPairs_twinTable :
    IdTable.ofPairs [("first", ⟨1⟩), ("second", ⟨2⟩), ("chosen", ⟨3⟩)] = .ok twinTable := by
  decide +kernel

theorem reading_in_any_order_twinData :
    (∃ f t, readFrame twinData ⟨[meshType]⟩ {} twinStore = (.ok f, t)) ∧
      ComesOutAlike ⟨[meshType]⟩ {} twinData
        { twinData with collections := twinData.collections.reverse } twinStore .empty ∧
      (forEach (setReferences twinResolver) [0, 1] twinStore).1 = .ok () ∧
      forEach (setReferences twinResolver) [1, 0] twinStore =
        forEach (setReferences twinResolver) [0, 1] twinStore := by
  have hids : twinData.ids.Built := .ofPairs ofPairs_twinTable
  have havoids : twinData.AvoidsSubsets := by decide +kernel
  have hreachable : Reachable twinStore :=
    (Reachable.empty.step (.rebuild meshType _ _ {})).step (.rebuild meshType _ _ {})
  have hawaits : ∀ c ∈ [0, 1], twinStore.AwaitsNormals twinResolver c := by decide +kernel
  have hread : (readFrame twinData ⟨[meshType]⟩ {} twinStore).1 = .ok 0 := by decide +kernel
  have hresolved : (forEach (setReferences twinResolver) [0, 1] twinStore).1 = .ok () := by
    decide +kernel
  have hboth := reading_in_any_order (List.reverse_perm twinData.collections) hids havoids
    ⟨[meshType]⟩ {} hreachable .empty (List.Perm.swap 1 0 []) hawaits
  refine ⟨⟨0, _, Prod.ext hread rfl⟩, hboth.1, hresolved, ?_⟩
  exact ((hboth.2 _).1 (Prod.ext hresolved rfl)).trans (Prod.ext hresolved.symm rfl)

end Store

end EventModel
