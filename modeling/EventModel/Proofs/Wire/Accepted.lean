import EventModel.Proofs.Wire.Conversion
import EventModel.Proofs.Wire.Extent

/-!
# What is accepted fits

Every body that is read, from whatever bytes, has sizes that are words again, and its numbers of
single precision are quiet. The keys may come in any order and with others between them: each entry
of a map keeps the fields that were read so far as they have to be.
-/

namespace EventModel.Wire

variable {α β : Type} {bound : Nat}

/-- A field satisfies `P` if it was read. -/
def Known (P : α → Prop) (field : Option α) : Prop :=
  ∀ x ∈ field, P x

theorem Known.none {P : α → Prop} : Known P none := by
  intro x hx
  cases hx

theorem takes_readOnce {r : Reader α} {size : α → Nat} {P : α → Prop} (hr : Takes 0 r size P)
    (old : Option α) : Takes 0 (readOnce old r) (fun _ => 0) (Known P) := by
  cases old with
  | some x => exact takes_fail
  | none =>
    refine hr.bind ?_
    intro x hx
    refine .pure (Nat.zero_le _) ?_
    intro y hy
    cases hy
    exact hx

/-- An entry that reads a field keeps what holds of the fields. -/
theorem takes_field {σ : Type} {r : Reader α} {size : α → Nat} {P : α → Prop} {I : σ → Prop}
    {old : Option α} {update : Option α → σ} (hr : Takes 0 r size P)
    (hupdate : ∀ field, Known P field → I (update field)) :
    Takes 0 (do return update (← readOnce old r)) (fun _ => 0) I :=
  (takes_readOnce hr old).bind fun field hfield => .pure (Nat.zero_le _) (hupdate field hfield)

/-- An entry that is passed over changes no field. -/
theorem takes_other {σ : Type} {I : σ → Prop} {state : σ} (hstate : I state) (depth : Nat) :
    Takes 0 (do skip bound depth; return state) (fun _ => 0) I :=
  (takes_skip depth).bind fun _ _ => .pure (Nat.zero_le _) hstate

theorem takes_need {field : Option α} {P : α → Prop} (hfield : Known P field) :
    Takes 0 (need field) (fun _ => 0) P := by
  cases field with
  | none => exact takes_fail
  | some x => exact .pure (Nat.le_refl 0) (hfield x rfl)

/-! ## Columns and collections -/

structure ColumnFields.Fits (fields : ColumnFields) : Prop where
  stride : Known (fun n => n < 2 ^ 64) fields.stride
  count : Known (fun n => n < 2 ^ 64) fields.count
  data : Known (fun data => data.length < 2 ^ 64) fields.data

theorem takes_readColumnBody (depth : Nat) :
    Takes 0 (readColumnBody bound depth) (fun _ => 1) ColumnBody.Fits := by
  have hdata : Takes 0 (readColumn bound) (fun _ => 0) fun data => data.length < 2 ^ 64 :=
    takes_readColumn.mono (fun _ _ => Nat.zero_le _) fun _ hlength _ => by omega
  refine Takes.bind (P := ColumnFields.Fits) (takes_readMap ?entry ?first) ?last
  case entry =>
    intro key fields hfields
    split
    · exact takes_field takes_readSize fun _ h => { hfields with stride := h }
    · split
      · exact takes_field takes_readSize fun _ h => { hfields with count := h }
      · split
        · exact takes_field hdata fun _ h => { hfields with data := h }
        · exact takes_other hfields depth
  case first => exact ⟨Known.none, Known.none, Known.none⟩
  case last =>
    intro fields hfields
    refine (takes_need hfields.stride).bind fun stride hstride => ?_
    refine (takes_need hfields.count).bind fun count hcount => ?_
    refine (takes_need hfields.data).bind fun data hdata => ?_
    exact .pure (by omega) ⟨hstride, hcount, hdata⟩

structure CollectionFields.Fits (fields : CollectionFields) : Prop where
  name : Known TextFits fields.name
  type : Known TextFits fields.type
  subset : Known (fun _ => True) fields.subset
  records : Known ColumnBody.Fits fields.records
  relations : Known (ListFits ColumnBody.Fits) fields.relations
  members : Known (ListFits ColumnBody.Fits) fields.members

theorem takes_readText_fits : Takes 0 (readString bound) (fun _ => 1) TextFits :=
  takes_readString.mono (fun _ _ => by omega) fun s hlength _ => by
    unfold TextFits
    omega

theorem takes_readCollectionBody (depth : Nat) :
    Takes 0 (readCollectionBody bound depth) (fun _ => 1) CollectionBody.Fits := by
  have hcolumns : Takes 0 (readList bound (readColumnBody bound (depth - 2))) (fun _ => 1)
      (ListFits ColumnBody.Fits) := takes_readList (takes_readColumnBody _)
  refine Takes.bind (P := CollectionFields.Fits) (takes_readMap ?entry ?first) ?last
  case entry =>
    intro key fields hfields
    split
    · exact takes_field takes_readText_fits fun _ h => { hfields with name := h }
    split
    · exact takes_field takes_readText_fits fun _ h => { hfields with type := h }
    split
    · exact takes_field takes_readBool fun _ h => { hfields with subset := h }
    split
    · exact takes_field (takes_readColumnBody _) fun _ h => { hfields with records := h }
    split
    · exact takes_field hcolumns fun _ h => { hfields with relations := h }
    split
    · exact takes_field hcolumns fun _ h => { hfields with members := h }
    · exact takes_other hfields depth
  case first =>
    exact ⟨Known.none, Known.none, Known.none, Known.none, Known.none, Known.none⟩
  case last =>
    intro fields hfields
    refine (takes_need hfields.name).bind fun name hname => ?_
    refine (takes_need hfields.type).bind fun type htype => ?_
    refine (takes_need hfields.subset).bind fun subset _ => ?_
    refine (takes_need hfields.records).bind fun records hrecords => ?_
    refine (takes_need hfields.relations).bind fun relations hrelations => ?_
    refine (takes_need hfields.members).bind fun members hmembers => ?_
    exact .pure (by omega) ⟨hname, htype, hrecords, hrelations, hmembers⟩

/-! ## Parameters -/

structure ParameterFields.Fits (fields : ParameterFields) : Prop where
  ints : Known (EntriesFit fun _ => True) fields.ints
  floats : Known (EntriesFit fun x => x.isSignalling = false) fields.floats
  doubles : Known (EntriesFit fun _ => True) fields.doubles
  strings : Known (EntriesFit TextFits) fields.strings

theorem takes_readEntriesOf {value : Reader α} {ofByte : UInt8 → Option α} {P : α → Prop}
    (hvalue : Takes 0 value (fun _ => 1) P) (hbyte : ∀ b x, ofByte b = some x → P x) :
    Takes 0 (readEntriesOf bound value ofByte) (fun _ => 1) (EntriesFit P) := by
  have hvalues : Takes 0 (readSequence bound value ofByte) (fun _ => 1) (ListFits P) :=
    (takes_readSequence hvalue hbyte).mono (fun _ _ => by omega) fun _ hlength hall =>
      ⟨by omega, hall⟩
  exact takes_readList (takes_readPair takes_readText_fits hvalues)

/-- A number of single precision comes from one of double precision or from a byte. -/
theorem takes_readSingle : Takes 0 (Binary64.narrow <$> readDouble bound) (fun _ => 1)
    fun x => x.isSignalling = false :=
  takes_readDouble.map (fun _ _ => by omega) fun x _ => x.not_isSignalling_narrow

theorem EntriesFit.imp {P Q : α → Prop} {entries : List (String × List α)}
    (hentries : EntriesFit P entries) (himp : ∀ x, P x → Q x) : EntriesFit Q entries := by
  refine ⟨hentries.1, ?_⟩
  intro entry hentry
  rcases hentries.2 entry hentry with ⟨hkey, hlength, hvalues⟩
  exact ⟨hkey, hlength, fun x hx => himp x (hvalues x hx)⟩

theorem takes_readParameterBody (depth : Nat) :
    Takes 0 (readParameterBody bound depth) (fun _ => 1) fun p => p.Fits ∧ p.IsQuiet := by
  have hints := @takes_readEntriesOf _ bound (readInt32 bound)
    (fun b => some (Int32.ofNat b.toNat)) _ takes_readInt32 fun _ _ _ => trivial
  have hfloats := @takes_readEntriesOf _ bound (Binary64.narrow <$> readDouble bound)
    (fun b => some (Binary32.ofNat b.toNat)) _ takes_readSingle fun b x hx => by
      cases hx
      exact Binary32.not_isSignalling_ofNat b
  have hdoubles := @takes_readEntriesOf _ bound (readDouble bound)
    (fun b => some (Binary64.ofNat b.toNat)) _ takes_readDouble fun _ _ _ => trivial
  have hstrings := @takes_readEntriesOf _ bound (readString bound) (fun _ => none) _
    takes_readText_fits fun _ _ hx => by cases hx
  refine Takes.bind (P := ParameterFields.Fits) (takes_readMap ?entry ?first) ?last
  case entry =>
    intro key fields hfields
    split
    · exact takes_field hints fun _ h => { hfields with ints := h }
    split
    · exact takes_field hfloats fun _ h => { hfields with floats := h }
    split
    · exact takes_field hdoubles fun _ h => { hfields with doubles := h }
    split
    · exact takes_field hstrings fun _ h => { hfields with strings := h }
    · exact takes_other hfields depth
  case first => exact ⟨Known.none, Known.none, Known.none, Known.none⟩
  case last =>
    intro fields hfields
    refine (takes_need hfields.ints).bind fun ints hints => ?_
    refine (takes_need hfields.floats).bind fun floats hfloats => ?_
    refine (takes_need hfields.doubles).bind fun doubles hdoubles => ?_
    refine (takes_need hfields.strings).bind fun strings hstrings => ?_
    have hfits : (ParameterBody.mk ints floats doubles strings).Fits :=
      ⟨hints, hfloats.imp fun _ _ => trivial, hdoubles, hstrings⟩
    exact .pure (by omega) ⟨hfits, fun entry hentry => (hfloats.2 entry hentry).2.2⟩

/-! ## Frames -/

structure FrameFields.Fits (fields : FrameFields) : Prop where
  ids : Known (ListFits fun pair => TextFits pair.1) fields.ids
  collections : Known (ListFits CollectionBody.Fits) fields.collections
  parameters : Known (fun p => p.Fits ∧ p.IsQuiet) fields.parameters

/-- A body that is read fits, and its numbers of single precision are quiet. -/
theorem takes_readFrameBody :
    Takes 0 (readFrameBody bound) (fun _ => 1) fun b => b.Fits ∧ b.parameters.IsQuiet := by
  have hid : Takes 0 (CollectionId.mk <$> readUInt32 bound) (fun _ => 1) fun _ => True :=
    takes_readUInt32.map (fun _ _ => by omega) fun _ _ => trivial
  have hids : Takes 0 (readList bound (readPair bound (readString bound)
      (CollectionId.mk <$> readUInt32 bound))) (fun _ => 1)
      (ListFits fun pair => TextFits pair.1) :=
    (takes_readList (takes_readPair takes_readText_fits hid)).mono (fun _ _ => by omega)
      fun _ _ h => ⟨h.1, fun pair hpair => (h.2 pair hpair).1⟩
  have hcollections : Takes 0 (readList bound (readCollectionBody bound (depthLimit - 3)))
      (fun _ => 1) (ListFits CollectionBody.Fits) := takes_readList (takes_readCollectionBody _)
  refine Takes.bind (P := FrameFields.Fits) (takes_readMap ?entry ?first) ?last
  case entry =>
    intro key fields hfields
    split
    · exact takes_field hids fun _ h => { hfields with ids := h }
    split
    · exact takes_field hcollections fun _ h => { hfields with collections := h }
    split
    · exact takes_field (takes_readParameterBody _) fun _ h => { hfields with parameters := h }
    · exact takes_other hfields _
  case first => exact ⟨Known.none, Known.none, Known.none⟩
  case last =>
    intro fields hfields
    refine (takes_need hfields.ids).bind fun ids hids => ?_
    refine (takes_need hfields.collections).bind fun collections hcollections => ?_
    refine (takes_need hfields.parameters).bind fun parameters hparameters => ?_
    exact .pure (by omega) ⟨⟨hids, hcollections, hparameters.1⟩, hparameters.2⟩

end EventModel.Wire
