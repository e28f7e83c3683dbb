import EventModel.Proofs.Store.Filled

/-!
# Frames and their mirrors

A frame mirrors another one if its collections were restored from the flat forms of the other's.
The two frames pick corresponding collections for a name and for a number, and an address that
leads to an object in the first frame leads to the counterpart of the object in the second.
-/

namespace EventModel

/-- Lists with the same keys and related values have related values under each key. -/
theorem lookup_forall₂ {κ α β : Type} [DecidableEq κ] {R : κ → α → β → Prop} {xs : List (κ × α)}
    {ys : List (κ × β)} (h : List.Forall₂ (fun x y => x.1 = y.1 ∧ R x.1 x.2 y.2) xs ys) (key : κ) :
    (xs.lookup key = none ∧ ys.lookup key = none) ∨
      ∃ a b, xs.lookup key = some a ∧ ys.lookup key = some b ∧ R key a b := by
  induction h with
  | nil => exact .inl ⟨rfl, rfl⟩
  | @cons x y xs ys hhead _ ih =>
    rcases x with ⟨x, a⟩
    rcases y with ⟨y, b⟩
    rcases hhead with ⟨hkey, hrel⟩
    cases (hkey : x = y)
    rw [List.lookup_cons, List.lookup_cons]
    by_cases heq : key = x
    · subst heq
      rw [beq_self_eq_true]
      exact .inr ⟨a, b, rfl, rfl, hrel⟩
    · rw [beq_false_of_ne heq]
      exact ih

/-- Two lists that are related to the same list are related to each other. -/
theorem forall₂_join {α β γ : Type} {R : α → γ → Prop} {R' : β → γ → Prop} {xs : List α}
    {ys : List β} {zs : List γ} (h : List.Forall₂ R xs zs) (h' : List.Forall₂ R' ys zs) :
    List.Forall₂ (fun x y => ∃ z ∈ zs, R x z ∧ R' y z) xs ys := by
  induction h generalizing ys with
  | nil =>
    cases h'
    exact .nil
  | @cons x z xs zs hhead _ ih =>
    rcases List.forall₂_cons_right_iff.1 h' with ⟨y, ys, hhead', hrest', rfl⟩
    refine .cons ⟨z, List.mem_cons_self, hhead, hhead'⟩ ((ih hrest').imp ?_)
    rintro x' y' ⟨z', hz', hx', hy'⟩
    exact ⟨z', List.mem_cons_of_mem z hz', hx', hy'⟩

namespace Store

variable {s s' : Store} {frame frame' : Frame} {entries : List FlatCollection}

/-! ## Mirrors -/

/-- The collections of `frame'` were restored from the flat forms of those of `frame`. -/
structure Mirrors (s s' : Store) (frame frame' : Frame) (entries : List FlatCollection) :
    Prop where
  wellFormed : WellFormed s
  wellFormed' : WellFormed s'
  held : ∃ f, s.frames.get? f = some frame
  held' : ∃ f, s'.frames.get? f = some frame'
  flats : List.Forall₂ (Names s.HasFlat) frame.slots entries
  restored : List.Forall₂ (Names (s'.Restored frame'.resolver)) frame'.slots entries

/-- The two collections belong to one flat collection. -/
structure Pairs (s s' : Store) (frame frame' : Frame) (e : FlatCollection)
    (c c' : CollectionKey) : Prop where
  slot : (e.name, c) ∈ frame.slots
  slot' : (e.name, c') ∈ frame'.slots
  flat : s.HasFlat c e.type e.id e.flat
  restored : s'.Restored frame'.resolver c' e.type e.id e.flat

theorem HasFlat.exists_collection {c : CollectionKey} {t : DataType} {id : CollectionId}
    {flat : Flat t} (h : s.HasFlat c t id flat) :
    ∃ col, s.collections.get? c = some col ∧ col.id = id := by
  rcases h.flatOf with ⟨config, storage, generation, prepared, origin, hcol, -⟩
  exact ⟨_, hcol, rfl⟩

theorem forall₂_known {slots : List (String × CollectionKey)}
    {P : CollectionKey → (t : DataType) → CollectionId → Flat t → Prop}
    (hP : ∀ c t id flat, P c t id flat → ∃ col, s.collections.get? c = some col ∧ col.id = id)
    (h : List.Forall₂ (Names P) slots entries) :
    List.Forall₂ (fun entry e => entry.1 = e.id ∧ (e.name, entry.2) ∈ slots ∧
      P entry.2 e.type e.id e.flat) (s.known (slots.map (·.2))) entries := by
  induction h with
  | nil => exact .nil
  | @cons slot e slots entries hhead _ ih =>
    rcases slot with ⟨name, c⟩
    rcases hhead with ⟨hname, hflat⟩
    rcases hP c e.type e.id e.flat hflat with ⟨col, hcol, hid⟩
    -- the collection exists, so it is known by its number
    have hknown : s.known (((name, c) :: slots).map (·.2)) =
        (col.id, c) :: s.known (slots.map (·.2)) := by
      simp [known, hcol]
    rw [hknown]
    refine .cons ⟨hid, ?_, hflat⟩ (ih.imp ?_)
    · rw [← hname]
      exact List.mem_cons_self
    · rintro entry e' ⟨hid', hslot, hflat'⟩
      exact ⟨hid', List.mem_cons_of_mem _ hslot, hflat'⟩

/-- Frames over the same flat collections pick corresponding collections for a number. -/
theorem resolverOf_cases {slots slots' : List (String × CollectionKey)}
    {P P' : CollectionKey → (t : DataType) → CollectionId → Flat t → Prop}
    (hP : ∀ c t id flat, P c t id flat → ∃ col, s.collections.get? c = some col ∧ col.id = id)
    (hP' : ∀ c t id flat, P' c t id flat →
      ∃ col, s'.collections.get? c = some col ∧ col.id = id)
    (h : List.Forall₂ (Names P) slots entries) (h' : List.Forall₂ (Names P') slots' entries)
    (n : CollectionId) :
    (s.resolverOf (slots.map (·.2)) n = none ∧ s'.resolverOf (slots'.map (·.2)) n = none) ∨
      ∃ c c', s.resolverOf (slots.map (·.2)) n = some c ∧
        s'.resolverOf (slots'.map (·.2)) n = some c' ∧ ∃ e ∈ entries, e.id = n ∧
          (e.name, c) ∈ slots ∧ (e.name, c') ∈ slots' ∧ P c e.type e.id e.flat ∧
            P' c' e.type e.id e.flat := by
  have hjoin := forall₂_join (forall₂_known hP h) (forall₂_known hP' h')
  have hpairs : List.Forall₂ (fun entry entry' => entry.1 = entry'.1 ∧
      ∃ e ∈ entries, e.id = entry.1 ∧ (e.name, entry.2) ∈ slots ∧ (e.name, entry'.2) ∈ slots' ∧
        P entry.2 e.type e.id e.flat ∧ P' entry'.2 e.type e.id e.flat)
      (s.known (slots.map (·.2))) (s'.known (slots'.map (·.2))) := by
    refine hjoin.imp ?_
    rintro entry entry' ⟨e, he, ⟨hid, hslot, hflat⟩, hid', hslot', hflat'⟩
    exact ⟨hid.trans hid'.symm, e, he, hid.symm, hslot, hslot', hflat, hflat'⟩
  rw [resolverOf_eq_lookup, resolverOf_eq_lookup]
  exact @lookup_forall₂ CollectionId CollectionKey CollectionKey _ (fun n c c' =>
    ∃ e ∈ entries, e.id = n ∧ (e.name, c) ∈ slots ∧ (e.name, c') ∈ slots' ∧
      P c e.type e.id e.flat ∧ P' c' e.type e.id e.flat) _ _ (List.forall₂_reverse_iff.2 hpairs) n

namespace Mirrors

theorem resolver_cases (h : Mirrors s s' frame frame' entries) (n : CollectionId) :
    (frame.resolver n = none ∧ frame'.resolver n = none) ∨
      ∃ c c', frame.resolver n = some c ∧ frame'.resolver n = some c' ∧
        ∃ e, e.id = n ∧ Pairs s s' frame frame' e c c' := by
  rcases h.held with ⟨f, hframe⟩
  rcases h.held' with ⟨f', hframe'⟩
  rw [resolver_eq_resolverOf h.wellFormed hframe, resolver_eq_resolverOf h.wellFormed' hframe']
  rcases resolverOf_cases (fun _ _ _ _ => HasFlat.exists_collection)
    (fun _ _ _ _ => Restored.exists_collection) h.flats h.restored n with hnone | hsome
  · exact .inl hnone
  · rcases hsome with ⟨c, c', hc, hc', e, -, hid, hslot, hslot', hflat, hrestored⟩
    exact .inr ⟨c, c', hc, hc', e, hid, hslot, hslot', hflat, hrestored⟩

/-- The slots of both frames belong to the same flat collections, in the same order. -/
theorem forall₂_pairs (h : Mirrors s s' frame frame' entries) :
    List.Forall₂ (fun slot slot' => slot.1 = slot'.1 ∧
      ∃ e, e.name = slot.1 ∧ Pairs s s' frame frame' e slot.2 slot'.2)
      frame.slots frame'.slots := by
  have hflats := (List.forall₂_and_left frame.slots entries).2 ⟨fun _ hslot => hslot, h.flats⟩
  have hrestored := (List.forall₂_and_left frame'.slots entries).2
    ⟨fun _ hslot => hslot, h.restored⟩
  refine (forall₂_join hflats hrestored).imp ?_
  rintro ⟨name, c⟩ ⟨name', c'⟩ ⟨e, -, ⟨hslot, hname, hflat⟩, hslot', hname', hback⟩
  cases (hname : name = e.name)
  cases (hname' : name' = e.name)
  exact ⟨rfl, e, rfl, hslot, hslot', hflat, hback⟩

/-- Both frames have the same names. -/
theorem name_cases (h : Mirrors s s' frame frame' entries) (name : String) :
    (frame.collection? name = none ∧ frame'.collection? name = none) ∨
      ∃ c c', frame.collection? name = some c ∧ frame'.collection? name = some c' ∧
        ∃ e, e.name = name ∧ Pairs s s' frame frame' e c c' := by
  rcases h.held with ⟨f, hframe⟩
  rcases h.held' with ⟨f', hframe'⟩
  rw [(h.wellFormed.indexed f frame hframe).collection?_eq_lookup,
    (h.wellFormed'.indexed f' frame' hframe').collection?_eq_lookup]
  have hpairs := h.forall₂_pairs
  exact @lookup_forall₂ String CollectionKey CollectionKey _ (fun name c c' =>
    ∃ e, e.name = name ∧ Pairs s s' frame frame' e c c') _ _ hpairs name

end Mirrors

/-! ## Counterparts -/

/-- The collection owns the object at a position. -/
def Keeps (s : Store) (c : CollectionKey) (i : Nat) (k : ObjectKey) : Prop :=
  ∃ o, s.objects.get? k = some o ∧ o.tracking = .owned c i

/-- The objects stand at one position in collections of one name. -/
def Counterpart (s s' : Store) (frame frame' : Frame) (k k' : ObjectKey) : Prop :=
  ∃ e c c' i, Pairs s s' frame frame' e c c' ∧ s.Keeps c i k ∧ s'.Keeps c' i k'

/-- A collection keeps one object at most at a position. -/
theorem Keeps.eq (h : WellFormed s) {c : CollectionKey} {i : Nat} {k k₁ : ObjectKey}
    (hk : s.Keeps c i k) (hk₁ : s.Keeps c i k₁) : k = k₁ := by
  rcases hk with ⟨o, ho, htracking⟩
  rcases hk₁ with ⟨o₁, ho₁, htracking₁⟩
  rcases h.owner k o c i ho htracking with ⟨col, objects, hcol, hstorage, hi⟩
  rcases h.owner k₁ o₁ c i ho₁ htracking₁ with ⟨col₁, objects₁, hcol₁, hstorage₁, hi₁⟩
  have hsame : col = col₁ := Option.some.inj (hcol.symm.trans hcol₁)
  have hobjects : objects = objects₁ := by
    rw [hsame] at hstorage
    exact Storage.owned.inj (hstorage.symm.trans hstorage₁)
  rw [hobjects] at hi
  exact Option.some.inj (hi.symm.trans hi₁)

/-- An object is kept by one collection at most, at one position. -/
theorem Keeps.place_eq {c d : CollectionKey} {i j : Nat} {k : ObjectKey} (h : s.Keeps c i k)
    (h' : s.Keeps d j k) : c = d ∧ i = j := by
  rcases h with ⟨o, ho, htracking⟩
  rcases h' with ⟨o', ho', htracking'⟩
  have hsame : o = o' := Option.some.inj (ho.symm.trans ho')
  rw [hsame, htracking'] at htracking
  cases htracking
  exact ⟨rfl, rfl⟩

theorem getElem?_of_objectAtPosition_subset {t : DataType} {id : CollectionId} {config : Config}
    {slots : List Slot} {generation : Nat} {prepared : Option Prepared}
    {origin : Option (Origin t)} {i : Nat} {k : ObjectKey}
    (hk : objectAtPosition ⟨t, id, config, .subset slots.toArray, generation, prepared, origin⟩ i =
      .ok k) : slots[i]? = some (.linked k) := by
  unfold objectAtPosition at hk
  dsimp only at hk
  rw [List.getElem?_toArray] at hk
  rcases hslot : slots[i]? with _ | id' | k'
  · rw [hslot] at hk
    cases hk
  · rw [hslot] at hk
    cases hk
  · rw [hslot] at hk
    cases hk
    rfl

/-- In a frame that exists, a collection has one name and a name has one collection. -/
theorem WellFormed.slot_eq (h : WellFormed s) (hheld : ∃ f, s.frames.get? f = some frame)
    {name name' : String} {c c' : CollectionKey} (hslot : (name, c) ∈ frame.slots)
    (hslot' : (name', c') ∈ frame.slots) : name = name' ↔ c = c' := by
  rcases hheld with ⟨f, hframe⟩
  constructor
  · rintro rfl
    have hlookup := lookup_eq_some_of_mem (h.names f frame hframe) hslot
    have hlookup' := lookup_eq_some_of_mem (h.names f frame hframe) hslot'
    exact Option.some.inj (hlookup.symm.trans hlookup')
  · rintro rfl
    exact (h.holder f frame name f frame name' c hframe hframe hslot hslot').2

namespace Mirrors

theorem counterpart_iff (h : Mirrors s s' frame frame' entries) {k k₁ k' k₁' : ObjectKey}
    (hk : Counterpart s s' frame frame' k k') (hk₁ : Counterpart s s' frame frame' k₁ k₁') :
    k = k₁ ↔ k' = k₁' := by
  rcases hk with ⟨e, c, c', i, hpairs, hkeeps, hkeeps'⟩
  rcases hk₁ with ⟨e₁, d, d', j, hpairs₁, hkeeps₁, hkeeps₁'⟩
  have hname := h.wellFormed.slot_eq h.held hpairs.slot hpairs₁.slot
  have hname' := h.wellFormed'.slot_eq h.held' hpairs.slot' hpairs₁.slot'
  constructor
  · rintro rfl
    rcases hkeeps.place_eq hkeeps₁ with ⟨hc, rfl⟩
    cases hname'.1 (hname.2 hc)
    exact hkeeps'.eq h.wellFormed' hkeeps₁'
  · rintro rfl
    rcases hkeeps'.place_eq hkeeps₁' with ⟨hc', rfl⟩
    cases hname.1 (hname'.2 hc')
    exact hkeeps.eq h.wellFormed hkeeps₁

/-- If an address leads an object back to itself in the first frame, it leads to the counterpart of
the object in the second one. -/
theorem counterpart_of_resolves (h : Mirrors s s' frame frame' entries) {id : ObjectId}
    {k k' : ObjectKey} (hid : s.idOf (some k) = .ok id)
    (hk : s.resolveObject frame.resolver id = .ok k)
    (hk' : s'.resolveObject frame'.resolver id = .ok k') :
    Counterpart s s' frame frame' k k' := by
  rcases resolveObject_eq_ok_iff.1 hk with ⟨c, col, i, hresolver, hcol, hposition, hplace⟩
  rcases resolveObject_eq_ok_iff.1 hk' with ⟨c', col', i', hresolver', hcol', hposition', hplace'⟩
  have hi : i' = i := Option.some.inj (hposition'.symm.trans hposition)
  subst hi
  rcases h.resolver_cases id.collection with ⟨hnone, -⟩ | ⟨d, d', hd, hd', e, -, hpairs⟩
  · rw [hnone] at hresolver
    cases hresolver
  · cases hresolver.symm.trans hd
    cases hresolver'.symm.trans hd'
    refine ⟨e, c, c', i', hpairs, ?_⟩
    rcases hpairs with ⟨-, -, hflat, hrestored⟩
    rcases e with ⟨name, number, t, flat⟩
    dsimp only at hflat hrestored
    cases hflat with
    | owned hstands hrows =>
      rcases hstands with ⟨config, generation, prepared, hstands⟩
      cases hrestored with
      | owned hstands' hlength hobjects =>
        rcases hstands' with ⟨config', generation', prepared', hstands'⟩
        cases hcol.symm.trans hstands
        cases hcol'.symm.trans hstands'
        exact ⟨owned_of_objectAtPosition h.wellFormed hcol rfl hplace,
          owned_of_objectAtPosition h.wellFormed' hcol' rfl hplace'⟩
    | subset hstands hids =>
      -- the place of `k` has the address of `k`, which would lead to that place itself
      rcases hstands with ⟨config, generation, prepared, hstands⟩
      cases hrestored with
      | subset hstands' hslots hother =>
        cases hcol.symm.trans hstands
        have hslot := getElem?_of_objectAtPosition_subset hplace
        rcases getElem?_of_forall₂ hids hslot with ⟨id', hid', hslotId⟩
        have heq : id' = id := Except.ok.inj (hslotId.symm.trans hid)
        rw [heq] at hid'
        exact absurd hd' (hother id (List.mem_of_getElem? hid'))

end Mirrors

end Store

end EventModel
