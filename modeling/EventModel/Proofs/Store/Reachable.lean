import EventModel.Proofs.Store.FrameOperations

/-!
# Reachable stores

A store is reachable if a sequence of operations, in any order and whether they succeed or fail,
leads to it from the empty store. Handles are what earlier operations returned, but nothing depends
on that; a collection that a frame holds can be read, prepared and resolved, and its objects can be
changed, but the collection itself cannot.
-/

namespace EventModel.Store

/-- One operation on a store. -/
inductive Step (s : Store) : Store → Prop
  | newObject (t : DataType) (payload : t.payload.Value) : Step s (newObject t payload s).2
  | emptyReference : Step s (refer none s).2
  | refer (k : ObjectKey) (h : s.existsObject k = true) : Step s (refer (some k) s).2
  | erase (r : Reference) : Step s (erase r s).2
  | cloneHandle {t : DataType} (handle : Handle t) : Step s (cloneHandle handle s).2
  | cloneMutable {t : DataType} (handle : MutableHandle t) : Step s (cloneMutable handle s).2
  | downcast (t : DataType) (r : Reference) : Step s (downcast t r s).2
  | downcastMutable (t : DataType) (r : Reference) : Step s (downcastMutable t r s).2
  | unlink (r : Reference) : Step s (unlink r s).2
  | drop (r : Reference) : Step s (drop r s).2
  | updatePayload {t : DataType} (handle : MutableHandle t)
      (f : t.payload.Value → t.payload.Value) : Step s (updatePayload handle f s).2
  | addRelated {t : DataType} (handle : MutableHandle t) (relation : Nat) (target : Reference) :
      Step s (addRelated handle relation target s).2
  | clearRelated {t : DataType} (handle : MutableHandle t) (relation : Nat) :
      Step s (clearRelated handle relation s).2
  | setSingle {t : DataType} (handle : MutableHandle t) (relation : Nat) (target : Reference) :
      Step s (setSingle handle relation target s).2
  | pushMember {t : DataType} (handle : MutableHandle t) (member : Nat)
      (value : t.element.Value) : Step s (pushMember handle member value s).2
  | setMembers {t : DataType} (handle : MutableHandle t) (member : Nat)
      (values : List t.element.Value) : Step s (setMembers handle member values s).2
  | newCollection (t : DataType) (subset : Bool) (config : Config) :
      Step s (newCollection t subset config s).2
  | clear (c : CollectionKey) (hloose : s.isLoose c = true) : Step s (clear c s).2
  | discard (c : CollectionKey) (hloose : s.isLoose c = true) : Step s (discard c s).2
  | setCollectionId (c : CollectionKey) (id : CollectionId) (hloose : s.isLoose c = true) :
      Step s (setCollectionId c id s).2
  | setSubset (c : CollectionKey) (subset : Bool) (hloose : s.isLoose c = true) :
      Step s (setSubset c subset s).2
  | create (t : DataType) (c : CollectionKey) (payload : t.payload.Value)
      (hloose : s.isLoose c = true) : Step s (create t c payload s).2
  | push {t : DataType} (c : CollectionKey) (handle : Handle t) (hloose : s.isLoose c = true) :
      Step s (push c handle s).2
  | objectAt (c : CollectionKey) (index : Nat) : Step s (objectAt c index s).2
  | getObject (t : DataType) (c : CollectionKey) (index : Nat) : Step s (getObject t c index s).2
  | getMutable (t : DataType) (c : CollectionKey) (index : Nat) :
      Step s (getMutable t c index s).2
  | rebuild (t : DataType) (b : Buffers) (id : CollectionId) (config : Config) :
      Step s (rebuild t b id config s).2
  | build (registry : Registry) (b : Buffers) (id : CollectionId) (config : Config) :
      Step s (build registry b id config s).2
  | setReferences (resolver : Resolver) (c : CollectionKey) :
      Step s (setReferences resolver c s).2
  | resolveAll (cs : List CollectionKey) : Step s (resolveAll cs s).2
  | resolve (resolver : Resolver) (id : ObjectId) : Step s (resolve resolver id s).2
  | prepare (c : CollectionKey) : Step s (prepare c s).2
  | newFrame (config : Config) : Step s (newFrame config s).2
  | discardFrame (f : FrameKey) : Step s (discardFrame f s).2
  | put (f : FrameKey) (name : String) (c : CollectionKey) (hloose : s.isLoose c = true) :
      Step s (put f name c s).2
  | setParameters (f : FrameKey) (parameters : Parameters) : Step s (setParameters f parameters s).2
  | take (t : DataType) (f : FrameKey) (name : String) : Step s (take t f name s).2
  | resolveFrame (f : FrameKey) : Step s (resolveFrame f s).2
  | writeFrame (f : FrameKey) : Step s (writeFrame f s).2
  | readFrame (data : FrameData) (registry : Registry) (config : Config)
      (hids : data.ids.Built) : Step s (readFrame data registry config s).2

/-- The stores that runs lead to. -/
inductive Reachable : Store → Prop
  | empty : Reachable .empty
  | step {s s' : Store} (h : Reachable s) (step : Step s s') : Reachable s'

variable {s s' : Store}

/-- The step sets a to-one relation, or fails to. -/
def TriesToSet (s s' : Store) : Prop :=
  ∃ (t : DataType) (handle : MutableHandle t) (relation : Nat) (target : Reference),
    s' = (setSingle handle relation target s).2

/-- An operation that sets no to-one relation is a sequence of gains or a sequence of losses. -/
theorem Step.gain_or_loss (h : WellFormed s) (step : Step s s') :
    s.TriesToSet s' ∨ Changes .gain s s' ∨ Changes .loss s s' := by
  cases step
  case newObject => exact .inr (.inl (newObject_changes _ _))
  case emptyReference =>
    rw [refer_apply]
    have hnone : ∀ k, none = some k → s.existsObject k = true := by simp
    exact .inr (.inl (hold_changes hnone))
  case refer hexists => exact .inr (.inl (refer_changes _ hexists))
  case erase => exact .inr (.inl (erase_changes h _))
  case cloneHandle => exact .inr (.inl (cloneHandle_changes h _))
  case cloneMutable => exact .inr (.inl (cloneMutable_changes h _))
  case downcast => exact .inr (.inl (downcast_changes _))
  case downcastMutable => exact .inr (.inl (downcastMutable_changes _))
  case unlink => exact .inr (.inr (unlink_changes _))
  case drop => exact .inr (.inr (drop_changes _))
  case updatePayload => exact .inr (.inl (updatePayload_changes h _ _))
  case addRelated => exact .inr (.inl (addRelated_changes h _ _ _))
  case clearRelated => exact .inr (.inl (clearRelated_changes h _ _))
  case setSingle => exact .inl ⟨_, _, _, _, rfl⟩
  case pushMember => exact .inr (.inl (pushMember_changes h _ _ _))
  case setMembers => exact .inr (.inl (setMembers_changes h _ _ _))
  case newCollection => exact .inr (.inl (newCollection_changes _ _ _))
  case clear hloose => exact .inr (.inr (clear_changes hloose))
  case discard hloose => exact .inr (.inr (discard_changes (isLoose_iff.1 hloose).2))
  case setCollectionId hloose => exact .inr (.inl (setCollectionId_changes hloose _))
  case setSubset hloose => exact .inr (.inr (setSubset_changes hloose _))
  case create hloose => exact .inr (.inl (create_changes hloose _))
  case push hloose => exact .inr (.inl (push_changes hloose _))
  case objectAt => exact .inr (.inl (objectAt_changes h _ _))
  case getObject => exact .inr (.inl (getObject_changes h _ _ _))
  case getMutable => exact .inr (.inl (getMutable_changes h _ _ _))
  case rebuild => exact .inr (.inl ((rebuild_changes _ _ _ _).1))
  case build => exact .inr (.inl ((build_changes _ _ _ _).1))
  case setReferences => exact .inr (.inl (setReferences_changes h _ _))
  case resolveAll => exact .inr (.inl (resolveAll_changes h _))
  case resolve => exact .inr (.inl (resolve_changes h _ _))
  case prepare => exact .inr (.inl (prepare_changes _))
  case newFrame => exact .inr (.inl (newFrame_changes _))
  case discardFrame => exact .inr (.inr (discardFrame_changes h _))
  case put hloose => exact .inr (put_changes _ _ hloose)
  case setParameters => exact .inr (.inl (setParameters_changes _ _))
  case take => exact .inr (.inl (take_changes _ _ _))
  case resolveFrame => exact .inr (.inl (resolveFrame_changes h _))
  case writeFrame => exact .inr (.inl (writeFrame_changes _))
  case readFrame hids => exact .inr (.inl (readFrame_changes h hids _ _))

theorem Step.changes (h : WellFormed s) (step : Step s s') : ∃ kind, Changes kind s s' := by
  rcases step.gain_or_loss h with ⟨t, handle, relation, target, rfl⟩ | hgain | hloss
  · rcases setSingle_changes handle relation target with hgain | hlink
    · exact ⟨.gain, hgain⟩
    · exact ⟨.link, hlink⟩
  · exact ⟨.gain, hgain⟩
  · exact ⟨.loss, hloss⟩

theorem Step.wellFormed (h : WellFormed s) (step : Step s s') : WellFormed s' := by
  obtain ⟨kind, hchanges⟩ := step.changes h
  exact hchanges.wellFormed h

/-- The invariant holds in every run. -/
theorem Reachable.wellFormed (h : Reachable s) : WellFormed s := by
  induction h with
  | empty => exact wellFormed_empty
  | step _ step ih => exact step.wellFormed ih

/-- What every change keeps holds in every run. -/
theorem Reachable.induct {P : Store → Prop} (hempty : P .empty)
    (hchange : ∀ kind s s', WellFormed s → P s → Change s kind s' → P s') (h : Reachable s) :
    P s := by
  induction h with
  | empty => exact hempty
  | @step s s' h step ih =>
    obtain ⟨kind, hchanges⟩ := step.changes h.wellFormed
    have hboth : WellFormed s' ∧ P s' := by
      clear step
      induction hchanges with
      | refl => exact ⟨h.wellFormed, ih⟩
      | tail _ change hmid => exact ⟨change.wellFormed hmid.1, hchange kind _ _ hmid.1 hmid.2 change⟩
    exact hboth.2

end EventModel.Store
