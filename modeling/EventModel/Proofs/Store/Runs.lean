import EventModel.Proofs.Store.Simulation

/-!
# Runs of operations

A caller asks questions and runs operations, one after the other. The questions and operations of a
store are listed here; no condition on collections or handles is put on them, so the runs include
all that lead from a reachable store to another. Stores that are `Alike` give the same answers in
every run.
-/

namespace EventModel.Store

variable {s s' : Store} {α : Type}

/-- What a caller can ask. A collection and a frame are given as a whole, so that everything that is
computed from one of them alone is covered. -/
inductive Question : {α : Type} → (Store → α) → Prop
  | target (r : Reference) : Question fun s => s.target r
  | isAvailable (r : Reference) : Question fun s => s.isAvailable (s.target r)
  | idOf (r : Reference) : Question fun s => s.idOf (s.target r)
  | typeName (r : Reference) : Question fun s => s.typeName? (s.target r)
  | isTracked (r : Reference) : Question fun s => s.isTracked (s.target r)
  | handlesOfFloating (r : Reference) : Question fun s => s.handlesOfFloating? (s.target r)
  | referenceText (r : Reference) : Question fun s => s.referenceText (s.target r)
  | handleText {t : DataType} (h : Handle t) :
      Question fun s => s.handleText t (s.target h.toReference)
  | payload {t : DataType} (h : Handle t) :
      Question fun s => s.payload t (s.target h.toReference)
  | members {t : DataType} (h : Handle t) (member : Nat) :
      Question fun s => s.members t (s.target h.toReference) member
  | related {t : DataType} (h : Handle t) (relation : Nat) :
      Question fun s => s.related t (s.target h.toReference) relation
  | relatedAs {t : DataType} (u : DataType) (h : Handle t) (relation : Nat) :
      Question fun s => s.relatedAs t u (s.target h.toReference) relation
  | relatedSize {t : DataType} (h : Handle t) (relation : Nat) :
      Question fun s => s.relatedSize t (s.target h.toReference) relation
  | single {t : DataType} (h : Handle t) (relation : Nat) :
      Question fun s => s.single t (s.target h.toReference) relation
  | singleAs {t : DataType} (u : DataType) (h : Handle t) (relation : Nat) :
      Question fun s => s.singleAs t u (s.target h.toReference) relation
  | existsObject (k : ObjectKey) : Question fun s => s.existsObject k
  | collection (c : CollectionKey) : Question fun s => s.collection c
  | collectionAs (t : DataType) (c : CollectionKey) : Question fun s => s.collectionAs t c
  | flatten (c : CollectionKey) : Question fun s => s.flatten c
  | isPrepared (c : CollectionKey) : Question fun s => s.isPrepared c
  | frame (f : FrameKey) : Question fun s => s.frame f
  | typedCollection (t : DataType) (frame : Frame) (name : String) :
      Question fun s => s.typedCollection? t frame name
  | resolveObject (resolver : Resolver) (id : ObjectId) :
      Question fun s => s.resolveObject resolver id
  | resolverOf (cs : List CollectionKey) : Question fun s => s.resolverOf cs

/-- What a caller can do. -/
inductive Operation : {α : Type} → StateM Store α → Prop
  | ask {α : Type} {question : Store → α} (h : Question question) :
      Operation fun s => (question s, s)
  | newObject (t : DataType) (payload : t.payload.Value) : Operation (newObject t payload)
  | refer (target : Option ObjectKey) : Operation (refer target)
  | erase (r : Reference) : Operation (erase r)
  | cloneHandle {t : DataType} (h : Handle t) : Operation (cloneHandle h)
  | cloneMutable {t : DataType} (h : MutableHandle t) : Operation (cloneMutable h)
  | downcast (t : DataType) (r : Reference) : Operation (downcast t r)
  | downcastMutable (t : DataType) (r : Reference) : Operation (downcastMutable t r)
  | unlink (r : Reference) : Operation (unlink r)
  | drop (r : Reference) : Operation (drop r)
  | relatedReferences {t : DataType} (h : Handle t) (relation : Nat) :
      Operation (relatedReferences h relation)
  | relatedHandles {t : DataType} (u : DataType) (h : Handle t) (relation : Nat) :
      Operation (relatedHandles u h relation)
  | singleReference {t : DataType} (h : Handle t) (relation : Nat) :
      Operation (singleReference h relation)
  | singleHandle {t : DataType} (u : DataType) (h : Handle t) (relation : Nat) :
      Operation (singleHandle u h relation)
  | updatePayload {t : DataType} (h : MutableHandle t) (f : t.payload.Value → t.payload.Value) :
      Operation (updatePayload h f)
  | addRelated {t : DataType} (h : MutableHandle t) (relation : Nat) (target : Reference) :
      Operation (addRelated h relation target)
  | clearRelated {t : DataType} (h : MutableHandle t) (relation : Nat) :
      Operation (clearRelated h relation)
  | setSingle {t : DataType} (h : MutableHandle t) (relation : Nat) (target : Reference) :
      Operation (setSingle h relation target)
  | pushMember {t : DataType} (h : MutableHandle t) (member : Nat) (value : t.element.Value) :
      Operation (pushMember h member value)
  | setMembers {t : DataType} (h : MutableHandle t) (member : Nat) (values : List t.element.Value) :
      Operation (setMembers h member values)
  | newCollection (t : DataType) (subset : Bool) (config : Config) :
      Operation (newCollection t subset config)
  | clear (c : CollectionKey) : Operation (clear c)
  | discard (c : CollectionKey) : Operation (discard c)
  | setCollectionId (c : CollectionKey) (id : CollectionId) : Operation (setCollectionId c id)
  | setSubset (c : CollectionKey) (subset : Bool) : Operation (setSubset c subset)
  | create (t : DataType) (c : CollectionKey) (payload : t.payload.Value) :
      Operation (create t c payload)
  | push {t : DataType} (c : CollectionKey) (h : Handle t) : Operation (push c h)
  | objectAt (c : CollectionKey) (index : Nat) : Operation (objectAt c index)
  | getObject (t : DataType) (c : CollectionKey) (index : Nat) : Operation (getObject t c index)
  | getMutable (t : DataType) (c : CollectionKey) (index : Nat) : Operation (getMutable t c index)
  | rebuild (t : DataType) (b : Buffers) (id : CollectionId) (config : Config) :
      Operation (rebuild t b id config)
  | build (registry : Registry) (b : Buffers) (id : CollectionId) (config : Config) :
      Operation (build registry b id config)
  | setReferences (resolver : Resolver) (c : CollectionKey) : Operation (setReferences resolver c)
  | resolveAll (cs : List CollectionKey) : Operation (resolveAll cs)
  | resolve (resolver : Resolver) (id : ObjectId) : Operation (resolve resolver id)
  | prepare (c : CollectionKey) : Operation (prepare c)
  | newFrame (config : Config) : Operation (newFrame config)
  | discardFrame (f : FrameKey) : Operation (discardFrame f)
  | put (f : FrameKey) (name : String) (c : CollectionKey) : Operation (put f name c)
  | setParameters (f : FrameKey) (parameters : Parameters) : Operation (setParameters f parameters)
  | take (t : DataType) (f : FrameKey) (name : String) : Operation (take t f name)
  | resolveFrame (f : FrameKey) : Operation (resolveFrame f)
  | writeFrame (f : FrameKey) : Operation (writeFrame f)
  | readFrame (data : FrameData) (registry : Registry) (config : Config) :
      Operation (readFrame data registry config)
  | writeStream (config : StreamConfig) (f : FrameKey) : Operation (writeStream config f)
  | readStream (config : StreamConfig) (registry : Registry) (bytes : Bytes) :
      Operation (readStream config registry bytes)

/-- Every question has one answer in stores that are alike. -/
theorem Question.answer_eq {question : Store → α} (q : Question question) (h : Alike s s') :
    question s' = question s := by
  have hreads := h.readsSame
  cases q with
  | target r => simp only [h.target]
  | isAvailable r => simp only [h.target, h.isAvailable]
  | idOf r => simp only [h.target, h.idOf]
  | typeName r => simp only [h.target, h.typeName?]
  | isTracked r => simp only [h.target, h.isTracked]
  | handlesOfFloating r => simp only [h.target, h.handlesOfFloating?]
  | referenceText r => simp only [Store.referenceText, h.target, h.typeName?, h.idOf]
  | handleText handle => simp only [Store.handleText, h.target, h.idOf]
  | payload handle => simp only [h.target, hreads.payload]
  | members handle member => simp only [h.target, hreads.members]
  | related handle relation => simp only [h.target, h.related]
  | relatedAs u handle relation => simp only [h.target, h.relatedAs]
  | relatedSize handle relation => simp only [h.target, h.relatedSize]
  | single handle relation => simp only [h.target, hreads.single]
  | singleAs u handle relation => simp only [h.target, h.singleAs]
  | existsObject k => simp only [h.existsObject]
  | collection c => simp only [h.collection]
  | collectionAs t c => simp only [h.collectionAs]
  | flatten c => simp only [h.flatten]
  | isPrepared c => simp only [h.isPrepared]
  | frame f => simp only [h.frame]
  | typedCollection t frame name => simp only [Store.typedCollection?, h.collectionAs]
  | resolveObject resolver id => simp only [h.resolveObject]
  | resolverOf cs => simp only [h.resolverOf]

/-- One step: stores that are alike give the same answer and stay alike. -/
theorem Operation.runs_match {operation : StateM Store α} (op : Operation operation)
    (h : Alike s s') : Matches (operation s) (operation s') := by
  cases op with
  | ask q => exact ⟨q.answer_eq h, h⟩
  | newObject t payload => exact h.newObject t payload
  | refer target => exact h.refer target
  | erase r => exact h.erase r
  | cloneHandle handle => exact h.cloneHandle handle
  | cloneMutable handle => exact h.cloneMutable handle
  | downcast t r => exact h.downcast t r
  | downcastMutable t r => exact h.downcastMutable t r
  | unlink r => exact h.unlink r
  | drop r => exact h.drop r
  | relatedReferences handle relation => exact h.relatedReferences handle relation
  | relatedHandles u handle relation => exact h.relatedHandles u handle relation
  | singleReference handle relation => exact h.singleReference handle relation
  | singleHandle u handle relation => exact h.singleHandle u handle relation
  | updatePayload handle f => exact h.updatePayload handle f
  | addRelated handle relation target => exact h.addRelated handle relation target
  | clearRelated handle relation => exact h.clearRelated handle relation
  | setSingle handle relation target => exact h.setSingle handle relation target
  | pushMember handle member value => exact h.pushMember handle member value
  | setMembers handle member values => exact h.setMembers handle member values
  | newCollection t subset config => exact h.addCollection _
  | clear c => exact h.clear c
  | discard c => exact h.discard c
  | setCollectionId c id => exact h.setCollectionId c id
  | setSubset c subset => exact h.setSubset c subset
  | create t c payload => exact h.create t c payload
  | push c handle => exact h.push c handle
  | objectAt c index => exact h.objectAt c index
  | getObject t c index => exact h.getObject t c index
  | getMutable t c index => exact h.getMutable t c index
  | rebuild t b id config => exact h.rebuild t b id config
  | build registry b id config => exact h.build registry b id config
  | setReferences resolver c => exact h.setReferences resolver c
  | resolveAll cs => exact h.resolveAll cs
  | resolve resolver id => exact h.resolve resolver id
  | prepare c => exact h.prepare c
  | newFrame config => exact h.newFrame config
  | discardFrame f => exact h.discardFrame f
  | put f name c => exact h.put f name c
  | setParameters f parameters => exact h.setParameters f parameters
  | take t f name => exact h.take t f name
  | resolveFrame f => exact h.resolveFrame f
  | writeFrame f => exact h.writeFrame f
  | readFrame data registry config => exact h.readFrame data registry config
  | writeStream config f => exact h.writeStream config f
  | readStream config registry bytes => exact h.readStream config registry bytes

/-! ## One operation after the other -/

/-- What the operations of a run answer, each in the store that the ones before it left. -/
def answers : List ((α : Type) × StateM Store α) → Store → List ((α : Type) × α)
  | [], _ => []
  | ⟨α, operation⟩ :: rest, s => ⟨α, (operation s).1⟩ :: answers rest (operation s).2

theorem Alike.answers_eq (h : Alike s s') {run : List ((α : Type) × StateM Store α)}
    (hrun : ∀ step ∈ run, Operation step.2) : answers run s' = answers run s := by
  induction run generalizing s s' with
  | nil => rfl
  | cons step rest ih =>
    -- the rest of the run starts from the two stores that the step leaves, which are alike again
    rcases step with ⟨α, operation⟩
    have hstep : Operation operation := hrun ⟨α, operation⟩ List.mem_cons_self
    have hmatch := hstep.runs_match h
    simp only [answers]
    rw [hmatch.answer, ih hmatch.stores fun next hnext => hrun next (List.mem_cons_of_mem _ hnext)]

end EventModel.Store
