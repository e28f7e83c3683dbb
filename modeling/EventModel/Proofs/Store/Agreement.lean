import EventModel.Proofs.Store.Construction
import EventModel.Proofs.Store.Outline
import EventModel.Proofs.Store.Ownership

/-!
# What entries have in common with the store

A ledger agrees with its store if what is written down is what the store tells (`Ledger.Agrees`): the
address in the entry of an object follows from the owner and the position of the object, an entry has
the lists and places that the type of its object asks for, and a collection keeps of a read what its
origin says. Each change of a store is matched here by what is written for it. The only one that is not
local is a new number, which goes through all entries of a collection in a loop.
-/

namespace EventModel

/-- The address is the one of an object in its place. The address of a released object is of no
importance. -/
def Tracking.Names (cs : Arena Collection) (address : ObjectId) : Tracking → Prop
  | .floating _ => address = .untracked
  | .owned c i => c < cs.next ∧ ∀ col, cs.get? c = some col → address = .ofPosition i col.id
  | .released => True

/-- The entry is one of an object of type `t` that belongs where `tracking` says. -/
structure Entry.Fits (cs : Arena Collection) (outline : DataType × Tracking) (e : Entry) : Prop where
  address : outline.2.Names cs e.address
  lists : e.lists = if outline.2 = .released then 0 else outline.1.toMany.length
  places : e.places = if outline.2 = .released then 0 else outline.1.toOne.length

/-- The later collections have the numbers that they had before; there may be new ones, or some may be
gone. -/
structure KeepsNumbers (cs cs' : Arena Collection) : Prop where
  next : cs.next ≤ cs'.next
  id : ∀ c col', c < cs.next → cs'.get? c = some col' →
    ∃ col, cs.get? c = some col ∧ col.id = col'.id

theorem Entry.Fits.mono {cs cs' : Arena Collection} {outline : DataType × Tracking} {e : Entry}
    (h : e.Fits cs outline) (hkeeps : KeepsNumbers cs cs') : e.Fits cs' outline where
  address := by
    have haddress := h.address
    -- only the address of an owned object depends on collections
    rcases outline with ⟨type, n | ⟨c, i⟩ | _⟩
    · exact haddress
    · refine ⟨Nat.lt_of_lt_of_le haddress.1 hkeeps.next, fun col' hcol' => ?_⟩
      obtain ⟨col, hcol, hid⟩ := hkeeps.id c col' haddress.1 hcol'
      rw [← hid]
      exact haddress.2 col hcol
    · trivial
  lists := h.lists
  places := h.places

namespace Ledger

open Store (SameOutline KeepsOutline WellFormed ObjectsWellFormed)

variable {α β : Type} {s s' : Store} {notes : Notes} {l l' : Ledger} {c : CollectionKey}
  {k : ObjectKey} {col : Collection}

/-- The entries are those of the objects, and the collections keep what their origin tells. -/
structure Agrees (l : Ledger) : Prop where
  nextEntry : l.notes.entries.next = l.store.objects.next
  nextRead : l.notes.reads.next = l.store.collections.next
  entries : ∀ k o, l.store.objects.get? k = some o →
    ∃ e, l.notes.entries.get? k = some e ∧ e.Fits l.store.collections o.outline
  reads : ∀ c col, l.store.collections.get? c = some col →
    l.notes.reads.get? c = some col.readState

namespace Agrees

theorem empty : Agrees .empty where
  nextEntry := rfl
  nextRead := rfl
  entries k o h := by simp [Ledger.empty, Arena.get?] at h
  reads c col h := by simp [Ledger.empty, Arena.get?] at h

/-! ## What each change keeps -/

theorem of_sameOutline (h : Agrees ⟨s, notes⟩) (hsame : SameOutline s s') : Agrees ⟨s', notes⟩ where
  nextEntry := h.nextEntry.trans hsame.nextObject.symm
  nextRead := h.nextRead.trans hsame.nextCollection.symm
  entries k o' ho' := by
    obtain ⟨o, ho, houtline⟩ := hsame.object ho'
    obtain ⟨e, he, hfits⟩ := h.entries k o ho
    refine ⟨e, he, houtline ▸ hfits.mono ⟨Nat.le_of_eq hsame.nextCollection.symm, ?_⟩⟩
    intro c col' _ hcol'
    obtain ⟨col, hcol, hsame'⟩ := hsame.collection hcol'
    exact ⟨col, hcol, congrArg Prod.fst hsame'⟩
  reads c col' hcol' := by
    obtain ⟨col, hcol, hsame'⟩ := hsame.collection hcol'
    rw [h.reads c col hcol]
    exact congrArg (some ∘ Prod.snd) hsame'

theorem addEntry (h : Agrees ⟨s, notes⟩) {o : Object} {e : Entry}
    (hfits : e.Fits s.collections o.outline) :
    Agrees ⟨{ s with objects := s.objects.insert o }, notes.addEntry e⟩ where
  nextEntry := by
    rw [Notes.addEntry, Arena.next_insert, Arena.next_insert, h.nextEntry]
  nextRead := h.nextRead
  entries k o' ho' := by
    rcases Arena.get?_insert_eq_some ho' with ho | ⟨rfl, rfl⟩
    · obtain ⟨e', he', hfits'⟩ := h.entries k o' ho
      exact ⟨e', Arena.get?_insert_of_get? he', hfits'⟩
    · refine ⟨e, ?_, hfits⟩
      rw [← h.nextEntry]
      exact Arena.get?_insert_next
  reads := h.reads

theorem addRead (h : Agrees ⟨s, notes⟩) (col : Collection) :
    Agrees ⟨{ s with collections := s.collections.insert col }, notes.addRead col.readState⟩ where
  nextEntry := h.nextEntry
  nextRead := by rw [Notes.addRead, Arena.next_insert, Arena.next_insert, h.nextRead]
  entries k o ho := by
    obtain ⟨e, he, hfits⟩ := h.entries k o ho
    refine ⟨e, he, hfits.mono ⟨by simp, fun c col' hlt hcol' => ?_⟩⟩
    -- no object of the store before can belong to the new collection
    rcases Arena.get?_insert_eq_some hcol' with hcol | ⟨rfl, rfl⟩
    · exact ⟨col', hcol, rfl⟩
    · exact absurd hlt (Nat.lt_irrefl _)
  reads c col' hcol' := by
    rcases Arena.get?_insert_eq_some hcol' with hcol | ⟨rfl, rfl⟩
    · exact Arena.get?_insert_of_get? (h.reads c col' hcol)
    · rw [← h.nextRead]
      exact Arena.get?_insert_next

/-- A new object gets the address of its place. -/
theorem addPlaced (h : Agrees ⟨s, notes⟩) (hcol : s.collections.get? c = some col) {t : DataType}
    (position : Nat) (body : Body t) :
    Agrees ⟨{ s with objects := s.objects.insert ⟨t, .owned c position, body⟩ },
      notes.addEntry (.new t (.ofPosition position col.id))⟩ := by
  refine h.addEntry ⟨⟨Arena.lt_next_of_get? hcol, fun col' hcol' => ?_⟩, rfl, rfl⟩
  cases hcol.symm.trans hcol'
  rfl

theorem addOwned (h : Agrees ⟨s, notes⟩) (hcol : s.collections.get? c = some col) {t : DataType}
    (position : Nat) (bodies : List (Body t)) :
    Agrees ⟨Store.addOwned c position bodies s,
      notes.addEntries t col.id position bodies.length⟩ := by
  induction bodies generalizing s notes position with
  | nil => exact h
  | cons body rest ih => exact ih (h.addPlaced hcol position body) hcol (position + 1)

/-- An entry gets another address or loses its relations, as its object does. -/
theorem modifyEntry (h : Agrees ⟨s, notes⟩) {f : Object → Object} {g : Entry → Entry}
    (hg : ∀ o e, s.objects.get? k = some o → e.Fits s.collections o.outline →
      (g e).Fits s.collections (f o).outline) :
    Agrees ⟨s.modifyObject k f, { notes with entries := notes.entries.modify k g }⟩ where
  nextEntry := by
    rw [Store.modifyObject_objects, Arena.next_modify, Arena.next_modify, h.nextEntry]
  nextRead := h.nextRead
  entries j o' ho' := by
    rcases Arena.get?_modify_eq_some ho' with ⟨rfl, o, ho, rfl⟩ | ⟨hne, ho⟩
    · obtain ⟨e, he, hfits⟩ := h.entries k o ho
      exact ⟨g e, Arena.get?_modify_self he g, hg o e ho hfits⟩
    · obtain ⟨e, he, hfits⟩ := h.entries j o' ho
      exact ⟨e, (Arena.get?_modify_ne hne g).trans he, hfits⟩
  reads := h.reads

theorem adopt (h : Agrees ⟨s, notes⟩) (hcol : s.collections.get? c = some col) {o : Object}
    (ho : s.objects.get? k = some o) {n : UInt32} (hfloating : o.tracking = .floating n)
    (position : Nat) :
    Agrees ⟨s.modifyObject k fun o => { o with tracking := .owned c position },
      notes.renumber k (.ofPosition position col.id)⟩ := by
  refine h.modifyEntry fun o' e ho' hfits => ?_
  cases ho.symm.trans ho'
  have hnot : ¬ o.tracking.settled = .released := by simp [hfloating, Tracking.settled]
  refine ⟨⟨Arena.lt_next_of_get? hcol, fun col' hcol' => ?_⟩, ?_, ?_⟩
  · cases hcol.symm.trans hcol'
    rfl
  · exact hfits.lists.trans (if_neg hnot)
  · exact hfits.places.trans (if_neg hnot)

theorem releaseAll (h : Agrees ⟨s, notes⟩) (ks : List ObjectKey) :
    Agrees ⟨s.releaseAll ks, notes.releaseAll ks⟩ := by
  induction ks generalizing s notes with
  | nil => exact h
  | cons k rest ih =>
    exact ih (h.modifyEntry (f := Object.release) (g := Entry.release) fun _ _ _ _ =>
      ⟨trivial, rfl, rfl⟩)

/-- A collection keeps something else of its read, and its number. -/
theorem modifyRead (h : Agrees ⟨s, notes⟩) {f : Collection → Collection}
    {g : Option ReadState → Option ReadState} (hobjects : s'.objects = s.objects)
    (hcollections : s'.collections = s.collections.modify c f)
    (hf : ∀ col, s.collections.get? c = some col →
      (f col).id = col.id ∧ (f col).readState = g col.readState) :
    Agrees ⟨s', { notes with reads := notes.reads.modify c g }⟩ where
  nextEntry := by rw [hobjects]; exact h.nextEntry
  nextRead := by rw [hcollections, Arena.next_modify, Arena.next_modify, h.nextRead]
  entries k o ho := by
    rw [hobjects] at ho
    obtain ⟨e, he, hfits⟩ := h.entries k o ho
    refine ⟨e, he, hfits.mono ⟨by rw [hcollections, Arena.next_modify], fun d col' _ hcol' => ?_⟩⟩
    rw [hcollections] at hcol'
    rcases Arena.get?_modify_eq_some hcol' with ⟨rfl, col, hcol, rfl⟩ | ⟨-, hcol⟩
    · exact ⟨col, hcol, (hf col hcol).1.symm⟩
    · exact ⟨col', hcol, rfl⟩
  reads d col' hcol' := by
    rw [hcollections] at hcol'
    rcases Arena.get?_modify_eq_some hcol' with ⟨rfl, col, hcol, rfl⟩ | ⟨hne, hcol⟩
    · rw [(hf col hcol).2]
      exact Arena.get?_modify_self (h.reads c col hcol) g
    · exact (Arena.get?_modify_ne hne g).trans (h.reads d col' hcol)

/-- What a collection keeps may be written once more. -/
theorem rewriteRead (h : Agrees ⟨s, notes⟩) {g : Option ReadState → Option ReadState}
    (hg : ∀ col, s.collections.get? c = some col → g col.readState = col.readState) :
    Agrees ⟨s, { notes with reads := notes.reads.modify c g }⟩ where
  nextEntry := h.nextEntry
  nextRead := (Arena.next_modify ..).trans h.nextRead
  entries := h.entries
  reads d col hcol := by
    have hread := h.reads d col hcol
    by_cases hd : c = d
    · subst hd
      exact (Arena.get?_modify_self hread g).trans (congrArg some (hg col hcol))
    · exact (Arena.get?_modify_ne hd g).trans hread

theorem eraseCollection (h : Agrees ⟨s, notes⟩) (c : CollectionKey) :
    Agrees ⟨{ s with collections := s.collections.erase c }, notes⟩ where
  nextEntry := h.nextEntry
  nextRead := h.nextRead.trans (Arena.next_erase ..).symm
  entries k o ho := by
    obtain ⟨e, he, hfits⟩ := h.entries k o ho
    exact ⟨e, he, hfits.mono ⟨Nat.le_of_eq (Arena.next_erase ..).symm, fun d col' _ hcol' =>
      ⟨col', (Arena.get?_erase_eq_some hcol').2, rfl⟩⟩⟩
  reads d col' hcol' := h.reads d col' (Arena.get?_erase_eq_some hcol').2

end Agrees

/-! ## The loop that renumbers -/

section RenumberAll

variable {id : CollectionId} {ks : List ObjectKey}

@[simp]
theorem renumberAll_reads (position : Nat) (ks : List ObjectKey) (notes : Notes) :
    (notes.renumberAll id position ks).reads = notes.reads := by
  induction ks generalizing position notes with
  | nil => rfl
  | cons k rest ih => exact ih _ _

@[simp]
theorem renumberAll_next (position : Nat) (ks : List ObjectKey) (notes : Notes) :
    (notes.renumberAll id position ks).entries.next = notes.entries.next := by
  induction ks generalizing position notes with
  | nil => rfl
  | cons k rest ih => exact (ih _ _).trans (Arena.next_modify ..)

theorem renumberAll_get?_of_not_mem (hk : k ∉ ks) (position : Nat) (notes : Notes) :
    (notes.renumberAll id position ks).entries.get? k = notes.entries.get? k := by
  induction ks generalizing position notes with
  | nil => rfl
  | cons k' rest ih =>
    have hne : k' ≠ k := fun heq => hk (heq ▸ List.mem_cons_self)
    have hrest : k ∉ rest := fun hmem => hk (List.mem_cons_of_mem _ hmem)
    exact (ih hrest _ _).trans (Arena.get?_modify_ne hne _)

/-- An entry that stands at one place of the list gets the address of that place. -/
theorem renumberAll_get? {i : Nat} {e : Entry} (he : notes.entries.get? k = some e)
    (hi : ks[i]? = some k) (honce : ∀ j, ks[j]? = some k → j = i) (position : Nat) :
    (notes.renumberAll id position ks).entries.get? k =
      some (e.renumber (.ofPosition (position + i) id)) := by
  induction ks generalizing position notes i with
  | nil => cases hi
  | cons k' rest ih =>
    cases i with
    | zero =>
      obtain rfl : k' = k := Option.some.inj hi
      -- the rest of the list does not name it again
      have hrest : k' ∉ rest := by
        intro hmem
        obtain ⟨j, hj⟩ := List.mem_iff_getElem?.1 hmem
        exact Nat.succ_ne_zero j (honce (j + 1) hj)
      exact (renumberAll_get?_of_not_mem hrest _ _).trans (Arena.get?_modify_self he _)
    | succ i =>
      have hne : k' ≠ k := by
        rintro rfl
        exact absurd (honce 0 rfl) (Nat.succ_ne_zero i).symm
      have hsame : (notes.renumber k' (.ofPosition position id)).entries.get? k = some e :=
        (Arena.get?_modify_ne hne _).trans he
      have hnext := ih hsame hi (fun j hj => Nat.succ.inj (honce (j + 1) hj)) (position + 1)
      rw [Nat.add_right_comm, Nat.add_assoc] at hnext
      exact hnext

end RenumberAll

/-- A collection lists the objects that it owns, each at its position. -/
theorem ownedBy_getElem?_iff (h : ObjectsWellFormed s) {i : Nat} :
    (s.ownedBy c)[i]? = some k ↔ s.tracking? k = some (.owned c i) := by
  rw [Store.tracking?_eq_some_iff, Store.ownedBy]
  constructor
  · intro hi
    rcases hcol : s.collections.get? c with _ | col
    · simp [hcol] at hi
    · rcases hstorage : col.storage with objects | slots
      · have hlisted : objects[i]? = some k := by
          simpa [hcol, hstorage, Storage.objects] using hi
        obtain ⟨o, ho, -, htracking⟩ := h.listed c col objects i k hcol hstorage hlisted
        exact ⟨o, ho, htracking⟩
      · simp [hcol, hstorage, Storage.objects] at hi
  · rintro ⟨o, ho, htracking⟩
    obtain ⟨col, objects, hcol, hstorage, hi⟩ := h.owner k o c i ho htracking
    simpa [hcol, hstorage, Storage.objects] using hi

/-- The loop gives the objects of the collection new addresses, and passes by every other object. -/
theorem renumberAll_ownedBy (h : ObjectsWellFormed s) {o : Object}
    (ho : s.objects.get? k = some o) {e : Entry} (he : notes.entries.get? k = some e)
    (c : CollectionKey) (id : CollectionId) :
    (notes.renumberAll id 0 (s.ownedBy c)).entries.get? k =
      some (match o.tracking with
        | .owned d i => if d = c then e.renumber (.ofPosition i id) else e
        | _ => e) := by
  have htracking := Store.tracking?_of_get? ho
  by_cases howned : ∃ i, o.tracking = .owned c i
  · obtain ⟨i, hi⟩ := howned
    rw [hi] at htracking
    have honce : ∀ j, (s.ownedBy c)[j]? = some k → j = i := by
      intro j hj
      rw [(ownedBy_getElem?_iff h).1 hj] at htracking
      cases htracking
      rfl
    rw [renumberAll_get? he ((ownedBy_getElem?_iff h).2 htracking) honce 0, hi, Nat.zero_add]
    exact congrArg some (if_pos rfl).symm
  · have hnot : k ∉ s.ownedBy c := by
      intro hmem
      obtain ⟨i, hi⟩ := List.mem_iff_getElem?.1 hmem
      rw [(ownedBy_getElem?_iff h).1 hi] at htracking
      exact howned ⟨i, (Option.some.inj htracking).symm⟩
    rw [renumberAll_get?_of_not_mem hnot, he]
    split
    · rename_i d i hi
      have hne : d ≠ c := by
        rintro rfl
        exact howned ⟨i, hi⟩
      exact congrArg some (if_neg hne).symm
    · rfl

theorem Agrees.setCollectionId (h : Agrees ⟨s, notes⟩) (hwell : ObjectsWellFormed s)
    (c : CollectionKey) (id : CollectionId) :
    Agrees ⟨s.modifyCollection c fun col => { col with id }.touch,
      notes.renumberAll id 0 (s.ownedBy c)⟩ where
  nextEntry := (renumberAll_next ..).trans h.nextEntry
  nextRead := by
    rw [renumberAll_reads, Store.modifyCollection_collections, Arena.next_modify, h.nextRead]
  entries k o ho := by
    obtain ⟨e, he, haddress, hlists, hplaces⟩ := h.entries k o ho
    refine ⟨_, renumberAll_ownedBy hwell ho he c id, ?_⟩
    have hnext : (s.collections.modify c fun col => { col with id }.touch).next =
        s.collections.next := Arena.next_modify ..
    -- an owned object has a new address or an owner whose number is what it was
    rcases o with ⟨type, n | ⟨d, i⟩ | _, body⟩
    · exact ⟨haddress, hlists, hplaces⟩
    · dsimp only
      split
      · rename_i hd
        refine ⟨⟨hnext ▸ haddress.1, fun col' hcol' => ?_⟩, hlists, hplaces⟩
        rcases Arena.get?_modify_eq_some hcol' with ⟨-, col, -, rfl⟩ | ⟨hne, -⟩
        · rfl
        · exact absurd hd.symm hne
      · rename_i hd
        refine ⟨⟨hnext ▸ haddress.1, fun col' hcol' => ?_⟩, hlists, hplaces⟩
        rcases Arena.get?_modify_eq_some hcol' with ⟨heq, -⟩ | ⟨-, hcol⟩
        · exact absurd heq.symm hd
        · exact haddress.2 col' hcol
    · exact ⟨trivial, hlists, hplaces⟩
  reads d col' hcol' := by
    rw [renumberAll_reads]
    rcases Arena.get?_modify_eq_some hcol' with ⟨rfl, col, hcol, rfl⟩ | ⟨-, hcol⟩
    · rw [h.reads c col hcol]
      exact congrArg some (col.readState_recounted id (col.generation + 1) none).symm
    · exact h.reads d col' hcol

end Ledger
end EventModel
