import UnitFacts.Json.Record
import UnitFacts.Proofs.Json.RoundTrip

/-!
Records that are written as objects are decoded from them. A field that is left out reads as missing,
every other one as what was written, as long as no two fields share a name.
-/

namespace UnitFacts.Json

@[simp] theorem writtenItems_eq_map (items : List Json) : writtenItems items = items.map written := by
  induction items with
  | nil => rfl
  | cons item rest ih => rw [writtenItems, ih, List.map_cons]

@[simp] theorem writtenMembers_eq_map (members : List (String × Json)) :
    writtenMembers members = members.map fun member => (some member.1, member.2.written) := by
  induction members with
  | nil => rfl
  | cons member rest ih => rw [writtenMembers, ih, List.map_cons]

theorem mapM_eq_some_map {α β : Type} {f : α → Option β} {g : α → β} {items : List α}
    (h : ∀ item ∈ items, f item = some (g item)) : items.mapM f = some (items.map g) := by
  induction items with
  | nil => rfl
  | cons item rest ih =>
    have hrest := ih fun later hlater => h later (List.mem_cons_of_mem _ hlater)
    simp [h item List.mem_cons_self, hrest]

/-! ### Fields -/

/-- The members of an object for fields some of which are left out. -/
def present (fields : List (String × Option Json)) : List (String × Json) :=
  fields.flatMap fun field => (field.2.map fun value => (field.1, value)).toList

theorem hasWords_present (names : List String) {values : List (Option Json)}
    (h : ∀ value? ∈ values, ∀ value ∈ value?, value.HasWords) :
    (Json.obj (present (names.zip values))).HasWords := by
  apply HasWords.obj
  intro member hmember
  obtain ⟨field, hfield, hvalue⟩ := List.mem_flatMap.mp hmember
  simp only [Option.mem_toList, Option.map_eq_some_iff] at hvalue
  obtain ⟨value, hsome, rfl⟩ := hvalue
  exact h field.2 (List.of_mem_zip hfield).2 value hsome

/-- The members of the first field, then those of the others. -/
theorem writtenMembers_present_cons (field : String × Option Json) (rest : List (String × Option Json)) :
    writtenMembers (present (field :: rest)) =
      (field.2.map fun value => (some field.1, value.written)).toList ++ writtenMembers (present rest) := by
  cases h : field.2 <;> simp [present, h]

theorem filter_present_eq_nil {name : String} {fields : List (String × Option Json)}
    (h : name ∉ fields.map (·.1)) :
    ((writtenMembers (present fields)).filter fun member => member.1 = some name) = [] := by
  induction fields with
  | nil => rfl
  | cons field rest ih =>
    rw [List.map_cons, List.mem_cons, not_or] at h
    rw [writtenMembers_present_cons, List.filter_append, ih h.2]
    cases field.2 <;> simp [Ne.symm h.1]

theorem filter_present {fields : List (String × Option Json)} (hnd : (fields.map (·.1)).Nodup)
    {field : String × Option Json} (h : field ∈ fields) :
    ((writtenMembers (present fields)).filter fun member => member.1 = some field.1) =
      (field.2.map fun value => (some field.1, value.written)).toList := by
  induction fields with
  | nil => cases h
  | cons first rest ih =>
    rw [List.map_cons, List.nodup_cons] at hnd
    rw [writtenMembers_present_cons, List.filter_append]
    rcases List.mem_cons.mp h with rfl | hrest
    · rw [filter_present_eq_nil hnd.1]
      cases field.2 <;> simp
    · have hne : first.1 ≠ field.1 := fun heq => hnd.1 (heq ▸ List.mem_map_of_mem hrest)
      rw [ih hnd.2 hrest]
      cases first.2 <;> simp [hne]

theorem uniqueMember_present {fields : List (String × Option Json)} (hnd : (fields.map (·.1)).Nodup)
    {field : String × Option Json} (h : field ∈ fields) :
    uniqueMember field.1 (writtenMembers (present fields)) = some (field.2.map written) := by
  unfold uniqueMember
  -- the reader takes members apart by a pattern, the lemma by projections
  erw [filter_present hnd h]
  cases field.2 <;> rfl

/-- A record reads back from an object with those of its fields that are not left out. -/
theorem fields?_present {names : List String} (hnd : names.Nodup) (values : List (Option Json))
    (hlen : names.length = values.length) :
    fields? names (Json.obj (present (names.zip values))).written = some (values.map (·.map written)) := by
  have hnames : (names.zip values).map (·.1) = names := List.map_fst_zip (Nat.le_of_eq hlen)
  have hvalues : (names.zip values).map (·.2) = values := List.map_snd_zip (Nat.le_of_eq hlen.symm)
  generalize names.zip values = fields at hnames hvalues
  subst hnames hvalues
  have hkeys : (writtenMembers (present fields)).all (fun member => member.1.isSome) = true := by simp
  rw [written, fields?, if_pos hkeys, List.mapM_map, List.map_map]
  exact mapM_eq_some_map fun field hfield => uniqueMember_present hnd hfield

/-! ### Values of fields -/

section Values

@[simp] theorem text?_written (text : String) : Written.text? (Json.str text).written = some text := by
  rw [written, Written.text?]

@[simp] theorem bool?_written (value : Bool) : Written.bool? (Json.bool value).written = some value := by
  rw [written, Written.bool?]

theorem nat32?_written {value : Nat} (h : value < UInt32.size) :
    nat32? (Json.ofNat value).written = some value := by
  simp only [ofNat, written, nat32?, Written.natBelow?, natBelow?]
  simpa using h

@[simp] theorem word32?_written (value : UInt32) : word32? (Json.ofWord value).written = some value := by
  rw [word32?, ofWord, nat32?_written value.toNat_lt]
  simp

@[simp] theorem choice?_written {α : Type} (ofName? : String → Option α) (name : String) :
    choice? ofName? (Json.str name).written = ofName? name := by
  rw [written, choice?]

theorem listOf?_written {α : Type} {decode : Written → Option α} {encode : α → Json} {items : List α}
    (h : ∀ item ∈ items, decode (encode item).written = some item) :
    listOf? decode (Json.arr (items.map encode)).written = some items := by
  have hitems : items.mapM (fun item => decode (encode item).written) = some items := by
    simpa using mapM_eq_some_map h
  simp only [written, listOf?, Written.items?, writtenItems_eq_map, List.map_map, List.mapM_map,
    Option.bind_some]
  exact hitems

theorem nullable_written {α : Type} {decode : Written → Option α} {value : Json} {a : α}
    (hnull : value ≠ .null) (h : decode value.written = some a) :
    nullable decode value.written = some (some a) := by
  cases value with
  | null => exact absurd rfl hnull
  | _ =>
    rw [written] at h ⊢
    rw [nullable, h, Option.map_some]
    simp

/-- A field that may be null is left out when there is nothing to write. -/
theorem defaulted_nullable {α : Type} {decode : Written → Option α} {encode : α → Json} {value? : Option α}
    (hnull : ∀ value, encode value ≠ .null)
    (h : ∀ value ∈ value?, decode (encode value).written = some value) :
    defaulted none (nullable decode) ((value?.map encode).map written) = some value? := by
  cases value? with
  | none => rfl
  | some value => exact nullable_written (hnull value) (h value rfl)

theorem hasWords_ofNat {value : Nat} (h : value < UInt32.size) : (Json.ofNat value).HasWords := by
  apply HasWords.num
  simp only [Number.IsWord, Number.wordLimit, UInt32.size] at h ⊢
  omega

theorem hasWords_ofWord (value : UInt32) : (Json.ofWord value).HasWords := hasWords_ofNat value.toNat_lt

end Values

end UnitFacts.Json
