/-
# Records that are read back

A record is written as its fields in order, without those that are unset, and then the entries of a
dictionary. If no two fields have the same name and no entry has the name of a field, every field is
found again with its value, and the dictionary is what is left over. So a record is read back if each of
its values is (`Restores`).

Key definitions: `Restores`, `Slot`, `record`, `Distinct`.
Key theorems: `fields?_record`, `find?_recordFields`, `option?_slot`, `list?_slot`, `others?_record`.
-/
import TraefikUpgrade.Yaml.Record

namespace TraefikUpgrade.Yaml

open Text (Dictionary)

variable {α : Type} {read : Value → Option α} {write : α → Value}

/-- Whether what is written of a value is read as the value. It must not be the null value, which stands
for no value. -/
structure Restores (read : Value → Option α) (write : α → Value) (x : α) : Prop where
  read_write : read (write x) = some x
  write_ne : write x ≠ .null

theorem Restores.of_eq {x : α} {v : Value} (hw : write x = v) (hr : read v = some x) (hv : v ≠ .null) :
    Restores read write x :=
  ⟨by rw [hw, hr], by rw [hw]; exact hv⟩

theorem restores_text (s : String) : Restores Value.text? .text s := ⟨rfl, nofun⟩

theorem restores_bool (b : Bool) : Restores readBool? .bool b := ⟨rfl, nofun⟩

theorem restores_int {n : Int} (h : isInt64 n = true) : Restores readInt? .int n :=
  ⟨by simp [readInt?, Value.untagged, h], nofun⟩

theorem isInt64_of_readInt? {v : Value} {n : Int} (h : readInt? v = some n) : isInt64 n = true := by
  unfold readInt? at h
  split at h
  · split at h
    · next hn => cases h; exact hn
    · cases h
  · cases h

/-! ### Dictionaries -/

theorem insertEntry_of_lt {key : String} {value : α} : ∀ {entries : List (String × α)},
    (∀ e ∈ entries, e.1 < key) →
    Dictionary.insertEntry key value entries = entries ++ [(key, value)]
  | [], _ => rfl
  | e :: entries, h => by
    rw [List.forall_mem_cons] at h
    have hne : key ≠ e.1 := fun he => String.lt_irrefl _ (he ▸ h.1)
    have hlt : ¬ key < e.1 := fun hlt => String.lt_irrefl _ (String.lt_trans hlt h.1)
    rw [Dictionary.insertEntry, if_neg hlt, if_neg hne, insertEntry_of_lt h.2]
    rfl

theorem foldl_insert (d : Dictionary α) : ∀ (entries : List (String × α)),
    (d.entries ++ entries).Pairwise (fun a b => a.1 < b.1) →
    (entries.foldl (fun d entry => d.insert entry.1 entry.2) d).entries = d.entries ++ entries
  | [], _ => (List.append_nil _).symm
  | (key, value) :: entries, h => by
    have hlt : ∀ e ∈ d.entries, e.1 < key := fun e he =>
      (List.pairwise_append.1 h).2.2 e he _ (List.mem_cons_self ..)
    have hd : (d.insert key value).entries = d.entries ++ [(key, value)] := insertEntry_of_lt hlt
    rw [List.foldl_cons, foldl_insert _ entries (by rwa [hd, List.append_assoc]), hd,
      List.append_assoc]
    rfl

/-- Entries that are in order are the dictionary of them. -/
theorem ofEntries_entries (d : Dictionary α) : Dictionary.ofEntries d.entries = d :=
  Dictionary.ext (foldl_insert .empty d.entries d.sorted)

theorem eq_or_mem_of_mem_insertEntry {key : String} {value : α} : ∀ {entries : List (String × α)}
    {e : String × α}, e ∈ Dictionary.insertEntry key value entries → e = (key, value) ∨ e ∈ entries
  | [], e, h => .inl (List.mem_singleton.1 h)
  | entry :: entries, e, h => by
    unfold Dictionary.insertEntry at h
    split at h
    · exact List.mem_cons.1 h
    · split at h
      · exact (List.mem_cons.1 h).imp_right (List.mem_cons_of_mem _)
      · rcases List.mem_cons.1 h with rfl | h
        · exact .inr (List.mem_cons_self ..)
        · exact (eq_or_mem_of_mem_insertEntry h).imp_right (List.mem_cons_of_mem _)

theorem mem_or_mem_of_mem_foldl : ∀ (entries : List (String × α)) (d : Dictionary α) {e : String × α},
    e ∈ (entries.foldl (fun d entry => d.insert entry.1 entry.2) d).entries →
    e ∈ d.entries ∨ e ∈ entries
  | [], _, _, h => .inl h
  | entry :: entries, d, e, h => by
    rcases mem_or_mem_of_mem_foldl entries _ h with h | h
    · rcases eq_or_mem_of_mem_insertEntry h with rfl | h
      · exact .inr (List.mem_cons_self ..)
      · exact .inl h
    · exact .inr (List.mem_cons_of_mem _ h)

theorem mem_of_mem_ofEntries {entries : List (String × α)} {e : String × α}
    (h : e ∈ (Dictionary.ofEntries entries).entries) : e ∈ entries :=
  (mem_or_mem_of_mem_foldl entries .empty h).resolve_left List.not_mem_nil

/-! ### What is written -/

/-- The name of a field with its value, if it is set. -/
abbrev Slot := String × Option Value

/-- The fields that are set. -/
def slotFields (slots : List Slot) : Fields :=
  slots.flatMap fun slot => slot.2.toList.map (slot.1, ·)

/-- The fields of a record: those that are set, and further entries. -/
def recordFields (slots : List Slot) (others : Dictionary Value) : Fields :=
  slotFields slots ++ others.entries

/-- Fields as entries of a mapping. -/
def textKeys (f : Fields) : Entries := f.map fun field => (.text field.1, field.2)

/-- A record as it is written. -/
def record (slots : List Slot) (others : Dictionary Value) : Value :=
  .mapping (textKeys (recordFields slots others))

/-- The list of a field, which is not set if the list is empty. -/
def listSlot (write : α → Value) (xs : List α) : Option Value :=
  if xs.isEmpty then none else some (.sequence (xs.map write))

/-- The dictionary of a field, which is not set if the dictionary is empty. -/
def dictionarySlot (write : α → Value) (d : Dictionary α) : Option Value :=
  if d.isEmpty then none else some (.mapping (dictionaryEntries write d))

theorem textKeys_append (f g : Fields) : textKeys f ++ textKeys g = textKeys (f ++ g) :=
  List.map_append.symm

theorem field_eq (name : String) (v : Value) : field name v = textKeys (slotFields [(name, some v)]) :=
  rfl

theorem optionField_eq (name : String) (write : α → Value) (o : Option α) :
    optionField name write o = textKeys (slotFields [(name, o.map write)]) := by
  cases o <;> rfl

theorem listField_eq (name : String) (write : α → Value) (xs : List α) :
    listField name write xs = textKeys (slotFields [(name, listSlot write xs)]) := by
  unfold listField listSlot
  split <;> rfl

theorem dictionaryField_eq (name : String) (write : α → Value) (d : Dictionary α) :
    dictionaryField name write d = textKeys (slotFields [(name, dictionarySlot write d)]) := by
  unfold dictionaryField dictionarySlot
  split <;> rfl

theorem omittedField_eq (name : String) (v : Value) (c : Prop) [Decidable c] :
    (if c then [] else textKeys (slotFields [(name, some v)])) =
      textKeys (slotFields [(name, if c then none else some v)]) := by
  split <;> rfl

theorem dictionaryEntries_id (d : Dictionary Value) : dictionaryEntries id d = textKeys d.entries := rfl

theorem slotFields_append (slots slots' : List Slot) :
    slotFields slots ++ slotFields slots' = slotFields (slots ++ slots') :=
  List.flatMap_append.symm

theorem mapping_slotFields (slots : List Slot) :
    Value.mapping (textKeys (slotFields slots)) = record slots .empty := by
  rw [record, recordFields]
  show _ = Value.mapping (textKeys (slotFields slots ++ []))
  rw [List.append_nil]

theorem mapping_recordFields (slots : List Slot) (others : Dictionary Value) :
    Value.mapping (textKeys (slotFields slots ++ others.entries)) = record slots others := rfl

/-! ### What is read back -/

theorem mapM_textKeys : ∀ (f : Fields),
    (textKeys f).mapM (fun entry => entry.1.text?.map (·, entry.2)) = some f
  | [] => rfl
  | (name, v) :: f => by
    show ((textKeys ((name, v) :: f)).mapM _) = _
    rw [textKeys, List.map_cons, List.mapM_cons, ← textKeys, mapM_textKeys f]
    rfl

theorem fields?_record (slots : List Slot) (others : Dictionary Value) :
    fields? (record slots others) = some (recordFields slots others) :=
  mapM_textKeys _

theorem record_ne_null (slots : List Slot) (others : Dictionary Value) : record slots others ≠ .null :=
  nofun

/-- Whether a dictionary can be what is left over of a record with the known names. -/
def Leftover (known : List String) (d : Dictionary Value) : Prop :=
  ∀ e ∈ d.entries, e.1 ∉ known ∧ hasTag e.2 = false

/-- No two fields have the same name, and no further entry has the name of a field. -/
structure Distinct (slots : List Slot) (others : Dictionary Value) : Prop where
  nodup : (slots.map Prod.fst).Nodup
  others : ∀ e ∈ others.entries, e.1 ∉ slots.map Prod.fst

theorem Distinct.of_nodup {slots : List Slot} (h : (slots.map Prod.fst).Nodup) :
    Distinct slots .empty :=
  ⟨h, fun _ he => absurd he List.not_mem_nil⟩

theorem Distinct.of_leftover {slots : List Slot} {others : Dictionary Value}
    (h : (slots.map Prod.fst).Nodup) (hl : Leftover (slots.map Prod.fst) others) :
    Distinct slots others :=
  ⟨h, fun e he => (hl e he).1⟩

theorem Leftover.mono {known known' : List String} {d : Dictionary Value} (h : Leftover known d)
    (hs : known' ⊆ known) : Leftover known' d :=
  fun e he => ⟨fun hm => (h e he).1 (hs hm), (h e he).2⟩

theorem filter_slotFields_of_notMem {name : String} : ∀ {slots : List Slot},
    name ∉ slots.map Prod.fst → (slotFields slots).filter (·.1 == name) = []
  | [], _ => rfl
  | (name', o) :: slots, h => by
    rw [List.map_cons, List.mem_cons, not_or] at h
    have ih := filter_slotFields_of_notMem h.2
    have hne : (name' == name) = false := by simpa using Ne.symm h.1
    rw [slotFields, List.flatMap_cons, ← slotFields, List.filter_append, ih]
    cases o <;> simp [hne]

theorem filter_slotFields {name : String} {o : Option Value} : ∀ {slots : List Slot},
    (slots.map Prod.fst).Nodup → (name, o) ∈ slots →
    (slotFields slots).filter (·.1 == name) = o.toList.map (name, ·)
  | (name', o') :: slots, hn, hm => by
    rw [List.map_cons, List.nodup_cons] at hn
    rw [slotFields, List.flatMap_cons, ← slotFields, List.filter_append]
    rcases List.mem_cons.1 hm with he | hm
    · cases he
      rw [filter_slotFields_of_notMem hn.1, List.append_nil]
      cases o <;> simp
    · have hne : (name' == name) = false := by
        rw [beq_eq_false_iff_ne]
        rintro rfl
        exact hn.1 (List.mem_map.2 ⟨_, hm, rfl⟩)
      rw [filter_slotFields hn.2 hm]
      cases o' <;> simp [hne]

section
variable {slots : List Slot} {others : Dictionary Value} {name : String}

theorem find?_recordFields (h : Distinct slots others) {o : Option Value} (i : Nat)
    (hi : slots[i]? = some (name, o)) : (recordFields slots others).find? name = some o := by
  have hm : (name, o) ∈ slots := List.mem_of_getElem? hi
  have hothers : others.entries.filter (·.1 == name) = [] := by
    rw [List.filter_eq_nil_iff]
    intro e he hname
    rw [beq_iff_eq] at hname
    exact h.others e he (hname ▸ List.mem_map_of_mem hm)
  unfold Fields.find? recordFields
  rw [List.filter_append, filter_slotFields h.nodup hm, hothers]
  cases o <;> rfl

theorem required?_slot (h : Distinct slots others) (i : Nat) {v : Value} (read : Value → Option α)
    (hi : slots[i]? = some (name, some v)) :
    (recordFields slots others).required? name read = read v := by
  rw [Fields.required?, find?_recordFields h i hi]
  rfl

theorem orDefault?_slot (h : Distinct slots others) (i : Nat) {v : Value} (default : α)
    (read : Value → Option α) (hi : slots[i]? = some (name, some v)) :
    (recordFields slots others).orDefault? name default read = read v := by
  rw [Fields.orDefault?, find?_recordFields h i hi]
  rfl

/-- A field that is not set if it has its default value. -/
theorem orDefault?_slot_of_omitted (h : Distinct slots others) (i : Nat) {x default : α}
    [Decidable (x = default)] (hr : Restores read write x)
    (hi : slots[i]? = some (name, if x = default then none else some (write x))) :
    (recordFields slots others).orDefault? name default read = some x := by
  rw [Fields.orDefault?, find?_recordFields h i hi]
  by_cases hx : x = default
  · rw [if_pos hx, hx]
    rfl
  · rw [if_neg hx]
    exact hr.read_write

theorem option?_slot (h : Distinct slots others) (i : Nat) {o : Option α}
    (hr : ∀ x ∈ o, Restores read write x) (hi : slots[i]? = some (name, o.map write)) :
    (recordFields slots others).option? name read = some o := by
  rw [Fields.option?, Fields.orDefault?, find?_recordFields h i hi]
  cases o with
  | none => rfl
  | some x =>
    obtain ⟨hread, hne⟩ := hr x rfl
    -- a value that is not null is read as it is
    simp only [Option.map_some, Option.bind_some]
    rw [hread, Option.map_some]

theorem mapM_write : ∀ {xs : List α}, (∀ x ∈ xs, Restores read write x) →
    (xs.map write).mapM read = some xs
  | [], _ => rfl
  | x :: xs, h => by
    rw [List.forall_mem_cons] at h
    rw [List.map_cons, List.mapM_cons, h.1.read_write, mapM_write h.2]
    rfl

theorem readList?_sequence {xs : List α} (h : ∀ x ∈ xs, Restores read write x) :
    readList? read (.sequence (xs.map write)) = some xs := mapM_write h

theorem list?_slot (h : Distinct slots others) (i : Nat) {xs : List α}
    (hr : ∀ x ∈ xs, Restores read write x) (hi : slots[i]? = some (name, listSlot write xs)) :
    (recordFields slots others).list? name read = some xs := by
  rw [Fields.list?, Fields.orDefault?, find?_recordFields h i hi, listSlot]
  cases xs with
  | nil => rfl
  | cons x xs => exact readList?_sequence hr

theorem list?_slot_of_sequence (h : Distinct slots others) (i : Nat) {xs : List α}
    (hr : ∀ x ∈ xs, Restores read write x)
    (hi : slots[i]? = some (name, some (.sequence (xs.map write)))) :
    (recordFields slots others).list? name read = some xs := by
  rw [Fields.list?, orDefault?_slot h i _ _ hi, readList?_sequence hr]

theorem readDictionary?_entries (d : Dictionary α) (hr : ∀ e ∈ d.entries, Restores read write e.2) :
    readDictionary? read (.mapping (dictionaryEntries write d)) = some d := by
  have hfields : fields? (.mapping (dictionaryEntries write d)) =
      some (d.entries.map fun e : String × α => (e.1, write e.2)) := by
    have hkeys : dictionaryEntries write d =
        textKeys (d.entries.map fun e : String × α => (e.1, write e.2)) := by
      rw [textKeys, List.map_map]
      rfl
    rw [hkeys]
    exact mapM_textKeys _
  have hentries : ∀ (entries : List (String × α)), (∀ e ∈ entries, Restores read write e.2) →
      (entries.map fun e : String × α => (e.1, write e.2)).mapM
        (fun entry => (read entry.2).map (entry.1, ·)) = some entries := by
    intro entries
    induction entries with
    | nil => exact fun _ => rfl
    | cons e entries ih =>
      intro h
      rw [List.forall_mem_cons] at h
      rw [List.map_cons, List.mapM_cons, ih h.2, h.1.read_write]
      rfl
  rw [readDictionary?, hfields]
  show (do
    let entries ← (d.entries.map fun e : String × α => (e.1, write e.2)).mapM
      fun entry : String × Value => (read entry.2).map (entry.1, ·)
    return Dictionary.ofEntries entries) = _
  rw [hentries d.entries hr]
  exact congrArg some (ofEntries_entries d)

theorem dictionary?_slot (h : Distinct slots others) (i : Nat) {d : Dictionary α}
    (hr : ∀ e ∈ d.entries, Restores read write e.2)
    (hi : slots[i]? = some (name, dictionarySlot write d)) :
    (recordFields slots others).orDefault? name .empty (readDictionary? read) = some d := by
  rw [Fields.orDefault?, find?_recordFields h i hi, dictionarySlot]
  by_cases hd : d.isEmpty = true
  · rw [if_pos hd]
    have he : d = .empty := Dictionary.ext (List.isEmpty_iff.1 hd)
    rw [he]
    rfl
  · rw [if_neg hd]
    exact readDictionary?_entries d hr

/-- What is left over of a record is the dictionary, if there are no tags in it. -/
theorem others?_record (h : Distinct slots others) {known : List String}
    (hl : Leftover known others) (hk : slots.map Prod.fst = known) :
    (recordFields slots others).others? known = some others := by
  subst hk
  have hslots : (slotFields slots).filter (fun e => !(slots.map Prod.fst).contains e.1) = [] := by
    rw [List.filter_eq_nil_iff]
    intro e he
    obtain ⟨slot, hm, he⟩ := List.mem_flatMap.1 he
    obtain ⟨v, -, rfl⟩ := List.mem_map.1 he
    simpa using ⟨_, hm⟩
  have hothers : others.entries.filter (fun e => !(slots.map Prod.fst).contains e.1) =
      others.entries := by
    rw [List.filter_eq_self]
    intro e he
    simpa using h.others e he
  have htags : (others.entries.any fun e => hasTag e.2) = false := by
    rw [List.any_eq_false]
    exact fun e he => by simp [(hl e he).2]
  unfold Fields.others? recordFields
  rw [List.filter_append, hslots, hothers, List.nil_append]
  simp only [htags]
  exact congrArg some (ofEntries_entries others)

end

/-! ### What a record that is read may hold -/

section
variable {f : Fields} {name : String}

theorem orDefault?_eq_some {default x : α} (h : f.orDefault? name default read = some x) :
    x = default ∨ ∃ v, read v = some x := by
  unfold Fields.orDefault? at h
  obtain ⟨o, -, h⟩ := Option.bind_eq_some_iff.1 h
  cases o with
  | none => exact .inl (Option.some.inj h).symm
  | some v => exact .inr ⟨v, h⟩

theorem option?_eq_some {o : Option α} (h : f.option? name read = some o) :
    ∀ x ∈ o, ∃ v, read v = some x := by
  intro x hx
  rcases orDefault?_eq_some h with rfl | ⟨v, hv⟩
  · cases hx
  · split at hv
    · cases hv
      cases hx
    · obtain ⟨y, hy, rfl⟩ := Option.map_eq_some_iff.1 hv
      cases hx
      exact ⟨_, hy⟩

theorem exists_of_mapM : ∀ {vs : List Value} {xs : List α}, vs.mapM read = some xs →
    ∀ x ∈ xs, ∃ v, read v = some x
  | [], xs, h, x, hx => by
    cases h
    cases hx
  | v :: vs, xs, h, x, hx => by
    rw [List.mapM_cons] at h
    obtain ⟨y, hy, h⟩ := Option.bind_eq_some_iff.1 h
    obtain ⟨ys, hys, h⟩ := Option.bind_eq_some_iff.1 h
    cases h
    rcases List.mem_cons.1 hx with rfl | hx
    · exact ⟨v, hy⟩
    · exact exists_of_mapM hys x hx

theorem list?_eq_some {xs : List α} (h : f.list? name read = some xs) :
    ∀ x ∈ xs, ∃ v, read v = some x := by
  rcases orDefault?_eq_some h with rfl | ⟨v, hv⟩
  · exact fun _ hx => absurd hx List.not_mem_nil
  · unfold readList? at hv
    split at hv
    · cases hv
      exact fun _ hx => absurd hx List.not_mem_nil
    · exact exists_of_mapM hv
    · cases hv

theorem others?_eq_some {known : List String} {d : Dictionary Value} (h : f.others? known = some d) :
    Leftover known d := by
  unfold Fields.others? at h
  dsimp only at h
  split at h
  · cases h
  · next ht =>
    cases h
    intro e he
    have hm := mem_of_mem_ofEntries he
    refine ⟨by simpa using (List.mem_filter.1 hm).2, ?_⟩
    rw [← Bool.not_eq_true]
    exact fun htag => ht (List.any_eq_true.2 ⟨e, hm, htag⟩)

end

end TraefikUpgrade.Yaml
