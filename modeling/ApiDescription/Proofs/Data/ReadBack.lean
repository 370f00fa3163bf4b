import ApiDescription.Data.Record
import ApiDescription.Json.Members
import ApiDescription.Proofs.Json.Distinct

/-!
# Reading written values back

A type of the document model is written by a function to `Json` and read by one from `Data`. That a
value is read back is said of one value at a time: `ReadsAs read j a` says that the written form `j`
is read as `a`, and that a field that may be missing does not take it for a missing one. Lists and maps
are read back item by item (`ReadsAs.listOf`, `ReadsAs.mapOf`).

A record is written as the object of those of its fields that are there (`Json.record`). Its reader
finds each field exactly as it was written (`Record.ofData?_record`), so that what a record is read as
follows field by field.
-/

set_option autoImplicit false

namespace ApiDescription

variable {α β : Type}

/-! ## Maps of values -/

namespace Entries

/-- The map with `f` applied to every value. -/
def mapValues (f : α → β) (es : List (String × α)) : List (String × β) := es.map fun e => (e.1, f e.2)

@[simp] theorem keys_mapValues (f : α → β) (es : List (String × α)) :
    keys (mapValues f es) = keys es := by
  simp [keys, mapValues]

@[simp] theorem mapValues_id (es : List (String × α)) : mapValues (fun a => a) es = es := by
  simp [mapValues]

theorem get?_mapValues (f : α → β) (es : List (String × α)) (key : String) :
    get? (mapValues f es) key = (get? es key).map f :=
  get?_map (fun _ => f) es key

theorem mapValues_put (f : α → β) (es : List (String × α)) (key : String) (value : α) :
    mapValues f (put es key value) = put (mapValues f es) key (f value) := by
  induction es with
  | nil => rfl
  | cons e rest ih =>
    by_cases h : e.1 = key
    · simp [mapValues, put, h]
    · simpa [mapValues, put, h] using ih

/-- No key is listed twice, and every value satisfies `p`. -/
def distinct (p : α → Bool) (es : List (String × α)) : Bool :=
  decide (keys es).Nodup && es.all fun e => p e.2

theorem distinct_iff (p : α → Bool) (es : List (String × α)) :
    distinct p es = true ↔ (keys es).Nodup ∧ ∀ k a, (k, a) ∈ es → p a = true := by
  rw [distinct, Bool.and_eq_true, decide_eq_true_eq, List.all_eq_true, Prod.forall]

end Entries

/-! ## Trees of JSON values -/

namespace Data

theorem ofItems_eq_map (xs : List Json) : ofItems xs = xs.map ofJson := by
  induction xs with
  | nil => rfl
  | cons x xs ih => rw [ofItems, ih, List.map_cons]

theorem ofMembers_eq_map (ms : List (String × Json)) :
    ofMembers ms = ms.map fun m => (some m.1, ofJson m.2) := by
  induction ms with
  | nil => rfl
  | cons m ms ih => rw [ofMembers, ih, List.map_cons]

theorem itemsToJson?_ofItems {xs : List Json}
    (h : ∀ x ∈ xs, (ofJson x).toJsonKeepingRepeats? = some x) :
    itemsToJson? (ofItems xs) = some xs := by
  induction xs with
  | nil => rfl
  | cons x xs ih =>
    obtain ⟨hx, hxs⟩ := List.forall_mem_cons.1 h
    rw [ofItems, itemsToJson?, hx, ih hxs]

theorem entriesToJson?_ofMembers {ms : List (String × Json)}
    (h : ∀ m ∈ ms, (ofJson m.2).toJsonKeepingRepeats? = some m.2) :
    entriesToJson? (ofMembers ms) = some ms := by
  induction ms with
  | nil => rfl
  | cons m ms ih =>
    obtain ⟨hm, hms⟩ := List.forall_mem_cons.1 h
    simp only [ofMembers, entriesToJson?, hm, ih hms]

theorem toJsonKeepingRepeats?_ofJson (j : Json) : (ofJson j).toJsonKeepingRepeats? = some j := by
  induction j using Json.induct with
  | array xs ih => simp [ofJson, toJsonKeepingRepeats?, itemsToJson?_ofItems ih]
  | object ms ih => simp [ofJson, toJsonKeepingRepeats?, entriesToJson?_ofMembers ih]
  | _ => rfl

/-- Every scalar of a JSON value has its type already. -/
theorem typed?_ofJson (j : Json) : (ofJson j).typed? = some (ofJson j) := by
  rw [typed?, toJsonKeepingRepeats?_ofJson, Option.map_some]

theorem toJson?_ofJson {j : Json} (h : j.distinct = true) : (ofJson j).toJson? = some j := by
  rw [toJson?, toJsonKeepingRepeats?_ofJson, Option.map_some, Json.withoutRepeats_eq_self h]

/-- Nothing but null stands for a missing value. -/
theorem optional?_ofJson (read : Data → Option α) {j : Json} (h : j ≠ .null) :
    (ofJson j).optional? read = (read (ofJson j)).map some := by
  cases j with
  | null => exact absurd rfl h
  | _ => rfl

theorem count?_ofNat {limit n : Nat} (h : n < limit) :
    (ofJson (.ofNat n)).count? limit = some n :=
  if_pos ⟨Int.natCast_nonneg n, Int.ofNat_lt.2 h⟩

/-! ### Depth -/

theorem depth_le_depthItems {xs : List Json} {x : Json} (h : x ∈ xs) :
    (ofJson x).depth ≤ depthItems (ofItems xs) := by
  induction xs with
  | nil => cases h
  | cons y ys ih =>
    rw [ofItems, depthItems]
    rcases List.mem_cons.1 h with rfl | h
    · exact Nat.le_max_left ..
    · exact Nat.le_trans (ih h) (Nat.le_max_right ..)

theorem depth_le_depthEntries {ms : List (String × Json)} {m : String × Json} (h : m ∈ ms) :
    (ofJson m.2).depth ≤ depthEntries (ofMembers ms) := by
  induction ms with
  | nil => cases h
  | cons n ns ih =>
    rw [ofMembers, depthEntries]
    rcases List.mem_cons.1 h with rfl | h
    · exact Nat.le_max_left ..
    · exact Nat.le_trans (ih h) (Nat.le_max_right ..)

theorem depth_lt_of_mem_array {xs : List Json} {x : Json} (h : x ∈ xs) :
    (ofJson x).depth < (ofJson (.array xs)).depth :=
  Nat.lt_succ_of_le (depth_le_depthItems h)

theorem depth_lt_of_mem_object {ms : List (String × Json)} {m : String × Json} (h : m ∈ ms) :
    (ofJson m.2).depth < (ofJson (.object ms)).depth :=
  Nat.lt_succ_of_le (depth_le_depthEntries h)

end Data

/-! ## Values that are read back -/

/-- Each item can be read, so the list can. -/
theorem mapM_map_eq_some {γ : Type} {l : List γ} {f : γ → β} {read : β → Option α} {g : γ → α}
    (h : ∀ c ∈ l, read (f c) = some (g c)) : (l.map f).mapM read = some (l.map g) := by
  induction l with
  | nil => rfl
  | cons c l ih =>
    obtain ⟨hc, hl⟩ := List.forall_mem_cons.1 h
    rw [List.map_cons, List.mapM_cons, hc, ih hl]
    rfl

/-- `read` reads the written form `j` as `a`, also where a value may be missing. -/
structure ReadsAs (read : Data → Option α) (j : Json) (a : α) : Prop where
  notNull : j ≠ .null
  reads : read (Data.ofJson j) = some a

namespace ReadsAs

theorem text (s : String) : ReadsAs Data.text? (.string s) s := ⟨nofun, rfl⟩

theorem bool (b : Bool) : ReadsAs Data.bool? (.bool b) b := ⟨nofun, rfl⟩

theorem number (n : Number) : ReadsAs Data.number? (.number n) n := ⟨nofun, rfl⟩

theorem name {parse : String → Option α} {s : String} {a : α} (h : parse s = some a) :
    ReadsAs (Data.nameOf? parse) (.string s) a := ⟨nofun, h⟩

/-- A list is read back item by item. -/
theorem listOf {write : α → Json} {read : Data → Option β} {f : α → β} {xs : List α}
    (h : ∀ x ∈ xs, read (Data.ofJson (write x)) = some (f x)) :
    ReadsAs (Data.listOf? read) (Json.listOf write xs) (xs.map f) := by
  refine ⟨nofun, ?_⟩
  have hitems : (Data.ofItems (xs.map write)).mapM read = some (xs.map f) := by
    rw [Data.ofItems_eq_map, List.map_map]
    exact mapM_map_eq_some h
  exact hitems

theorem texts (ss : List String) : ReadsAs (Data.listOf? Data.text?) (Json.listOf .string ss) ss := by
  have hread := listOf fun s (_ : s ∈ ss) => (text s).reads
  rw [List.map_id'] at hread
  exact hread

theorem jsons {js : List Json} (h : ∀ j ∈ js, j.distinct = true) :
    ReadsAs (Data.listOf? Data.toJson?) (.array js) js := by
  have hread := listOf fun j hj => Data.toJson?_ofJson (h j hj)
  rw [Json.listOf, List.map_id'] at hread
  exact hread

/-- A map whose keys are distinct is read back entry by entry. -/
theorem mapOf {write : α → Json} {read : Data → Option β} {f : α → β} {es : List (String × α)}
    (hk : (Entries.keys es).Nodup)
    (h : ∀ k a, (k, a) ∈ es → read (Data.ofJson (write a)) = some (f a)) :
    ReadsAs (Data.mapOf? read) (Json.mapOf write es) (Entries.mapValues f es) := by
  refine ⟨nofun, ?_⟩
  have hentries : (Data.ofMembers (es.map fun e => (e.1, write e.2))).mapM (fun e =>
      e.1.bind fun k => (read e.2).bind fun v => some (k, v)) = some (Entries.mapValues f es) := by
    rw [Data.ofMembers_eq_map, List.map_map]
    refine mapM_map_eq_some fun e he => ?_
    simp only [Function.comp_apply, Option.bind_some, h e.1 e.2 he]
  rw [← Entries.keys_mapValues f] at hk
  refine (congrArg (Option.bind · fun es => some (Entries.ofList es)) hentries).trans ?_
  rw [Option.bind_some, Entries.ofList_eq_self hk]

theorem mapOf_of_distinct {write : α → Json} {read : Data → Option β} {f : α → β} {p : α → Bool}
    {es : List (String × α)} (hd : Entries.distinct p es = true)
    (h : ∀ a, p a = true → ReadsAs read (write a) (f a)) :
    ReadsAs (Data.mapOf? read) (Json.mapOf write es) (Entries.mapValues f es) :=
  have hes := (Entries.distinct_iff p es).1 hd
  mapOf hes.1 fun k a ha => (h a (hes.2 k a ha)).reads

end ReadsAs

/-! ## Records -/

namespace Json

/-- The value, unless it is null. -/
def nonNull? (o : Option Json) : Option Json := o.filter fun j => !j.isNull

theorem nonNull?_of_ne_null {j : Json} (h : j ≠ .null) : nonNull? (some j) = some j := by
  cases j with
  | null => exact absurd rfl h
  | _ => rfl

/-- The members of the fields that are there. -/
def present (fields : List (String × Option Json)) : List (String × Json) :=
  fields.flatMap fun f => member? f.1 id f.2

/-- The object of the fields that are there. -/
def record (fields : List (String × Option Json)) : Json := .object (present fields)

/-- The written list or map, unless it is empty. -/
def nonEmpty? (write : List α → Json) : List α → Option Json
  | [] => none
  | xs => some (write xs)

theorem nonEmpty?_of_mem (write : List α → Json) {xs : List α} {x : α} (h : x ∈ xs) :
    nonEmpty? write xs = some (write xs) := by
  cases xs with
  | nil => cases h
  | cons _ _ => rfl

@[simp] theorem member?_id_some (name : String) (j : Json) : member? name id (some j) = [(name, j)] :=
  rfl

@[simp] theorem member?_id_map (name : String) (write : α → Json) (o : Option α) :
    member? name id (o.map write) = member? name write o := by
  cases o <;> rfl

@[simp] theorem member?_id_listOf (name : String) (write : α → Json) (xs : List α) :
    member? name id (nonEmpty? (listOf write) xs) = listMember name write xs := by
  cases xs <;> rfl

@[simp] theorem member?_id_mapOf (name : String) (write : α → Json) (es : List (String × α)) :
    member? name id (nonEmpty? (mapOf write) es) = mapMember name write es := by
  cases es <;> rfl

theorem present_cons_some (name : String) (j : Json) (fields : List (String × Option Json)) :
    present ((name, some j) :: fields) = (name, j) :: present fields := rfl

theorem mem_present {fields : List (String × Option Json)} {name : String} {j : Json}
    (h : (name, some j) ∈ fields) : (name, j) ∈ present fields :=
  List.mem_flatMap.2 ⟨_, h, List.mem_singleton.2 rfl⟩

/-- A record nests deeper than its fields. -/
theorem depth_lt_record {fields : List (String × Option Json)} (name : String) {j : Json}
    (h : (name, some j) ∈ fields) :
    (Data.ofJson j).depth < (Data.ofJson (record fields)).depth :=
  Data.depth_lt_of_mem_object (mem_present h)

theorem keys_present_sublist (fields : List (String × Option Json)) :
    (Entries.keys (present fields)).Sublist (Entries.keys fields) := by
  induction fields with
  | nil => exact List.Sublist.slnil
  | cons f fields ih =>
    obtain ⟨name, j⟩ := f
    cases j with
    | none => exact ih.cons name
    | some j => exact ih.cons_cons name

/-- A field is found as it was given. -/
theorem get?_present {fields : List (String × Option Json)} (hd : (Entries.keys fields).Nodup)
    {f : String × Option Json} (hf : f ∈ fields) :
    Entries.get? (present fields) f.1 = f.2 := by
  have hkeys := (keys_present_sublist fields).nodup hd
  obtain ⟨name, _ | j⟩ := f
  · -- A member of this name would come from a second field of the name.
    refine (Entries.get?_eq_none_iff _ _).2 fun hm => ?_
    obtain ⟨m, hm, hname⟩ := List.mem_map.1 hm
    obtain ⟨⟨name', _ | j'⟩, hf', hm'⟩ := List.mem_flatMap.1 hm
    · cases hm'
    · obtain rfl := List.mem_singleton.1 hm'
      have hnone := Entries.get?_eq_some_of_mem hd hf
      obtain rfl : name' = name := hname
      rw [Entries.get?_eq_some_of_mem hd hf'] at hnone
      cases hnone
  · exact Entries.get?_eq_some_of_mem hkeys (mem_present hf)

/-- A field that is not there gives way to a later one of its name. -/
theorem get?_present_cons (name : String) (o : Option Json) (fields : List (String × Option Json)) (key : String) :
    Entries.get? (present ((name, o) :: fields)) key =
      if name = key then o.or (Entries.get? (present fields) key) else Entries.get? (present fields) key := by
  cases o with
  | none => exact (ite_self _).symm
  | some j => rfl

theorem filter_present (p : String → Bool) (fields : List (String × Option Json)) :
    (present fields).filter (fun m => p m.1) = present (fields.filter fun f => p f.1) := by
  induction fields with
  | nil => rfl
  | cons f fields ih =>
    obtain ⟨name, j⟩ := f
    cases j <;> cases hp : p name <;> simpa [present, member?, hp] using ih

end Json

namespace Record

/-- The record has exactly what the fields say. -/
def Has (r : Record) : List (String × Option Json) → Prop
  | [] => True
  | (name, j) :: fields => Entries.get? r.fields name = j.map Data.ofJson ∧ r.Has fields

theorem has_of_forall {r : Record} {fields : List (String × Option Json)}
    (h : ∀ f ∈ fields, Entries.get? r.fields f.1 = f.2.map Data.ofJson) : r.Has fields := by
  induction fields with
  | nil => trivial
  | cons f fields ih =>
    obtain ⟨hf, hfields⟩ := List.forall_mem_cons.1 h
    exact ⟨hf, ih hfields⟩

/-- Of an object, the members that have the name of a field are kept. -/
theorem known?_ofMembers (names : List FieldName) {ms : List (String × Json)}
    (hd : (Entries.keys ms).Nodup) :
    known? names (Data.ofMembers ms) = some (Entries.mapValues Data.ofJson
      (ms.filter fun m => names.any (·.name == m.1))) := by
  induction ms with
  | nil => rfl
  | cons m ms ih =>
    obtain ⟨k, v⟩ := m
    obtain ⟨hk, hms⟩ := List.nodup_cons.1 hd
    have hnew : Entries.has (Entries.mapValues Data.ofJson
        (ms.filter fun m => names.any (·.name == m.1))) k = false := by
      rw [← Bool.not_eq_true, Entries.has, Entries.get?_isSome_iff, Entries.keys_mapValues]
      exact fun h => hk ((List.filter_sublist.map Prod.fst).subset h)
    simp only [Data.ofMembers, known?, ih hms]
    by_cases hn : names.any (·.name == k)
    · simp only [hn, hnew, List.filter_cons, Bool.false_eq_true, if_true, if_false]
      rfl
    · simp only [hn, List.filter_cons, Bool.false_eq_true, if_false]

variable {names : List FieldName} {fields : List (String × Option Json)}

/-- The reader of a record finds its fields as they were written. -/
theorem ofData?_record (hn : Entries.keys fields = names.map (·.name))
    (hd : (names.map (·.name)).Nodup) :
    ∃ r, ofData? names (Data.ofJson (Json.record fields)) = some r ∧ r.Has fields := by
  have hfields : (Entries.keys fields).Nodup := hn ▸ hd
  have hkeys := (Json.keys_present_sublist fields).nodup hfields
  have hall : (Json.present fields).filter (fun m => names.any (·.name == m.1)) =
      Json.present fields := by
    refine List.filter_eq_self.2 fun m hm => List.any_eq_true.2 ?_
    have hmem := (Json.keys_present_sublist fields).subset (Entries.mem_keys_of_mem hm)
    rw [hn] at hmem
    obtain ⟨n, hn, hname⟩ := List.mem_map.1 hmem
    exact ⟨n, hn, beq_iff_eq.2 hname⟩
  refine ⟨.mk (Entries.mapValues Data.ofJson (Json.present fields)), ?_,
    has_of_forall fun f hf => ?_⟩
  · have hk := known?_ofMembers names hkeys
    rw [hall] at hk
    simp [Json.record, Data.ofJson, ofData?, Data.entries?, hk]
  · rw [Entries.get?_mapValues, Json.get?_present hfields hf]

variable {r : Record} {field : String} {read : Data → Option α}

/-! ### Fields -/

theorem required?_of_get? {j : Json} {a : α}
    (hget : Entries.get? r.fields field = (some j).map Data.ofJson) (h : ReadsAs read j a) :
    r.required? field read = some a := by
  rw [required?, hget, Option.map_some, Option.bind_some, h.reads]

theorem withDefault?_of_some {default a : α} {j : Json}
    (hget : Entries.get? r.fields field = (some j).map Data.ofJson) (h : ReadsAs read j a) :
    r.withDefault? field default read = some a := by
  simp only [withDefault?, hget, Option.map_some, h.reads]

theorem optional?_of_get? {write : β → Json} {f : β → α} {o : Option β}
    (hget : Entries.get? r.fields field = (o.map write).map Data.ofJson)
    (h : ∀ b ∈ o, ReadsAs read (write b) (f b)) : r.optional? field read = some (o.map f) := by
  cases o with
  | none => simp [optional?, hget]
  | some b =>
    have hb := h b rfl
    simp [optional?, hget, Data.optional?_ofJson read hb.notNull, hb.reads]

/-- A list or map that is left out when it is empty has no items by default. -/
theorem withDefault?_of_get? {write : List β → Json} {read : Data → Option (List α)} {xs : List β}
    {ys : List α}
    (hget : Entries.get? r.fields field = (Json.nonEmpty? write xs).map Data.ofJson)
    (hnil : read (Data.ofJson (write [])) = some []) (h : ReadsAs read (write xs) ys) :
    r.withDefault? field [] read = some ys := by
  cases xs with
  | nil =>
    simp only [withDefault?, hget, Json.nonEmpty?, Option.map_none]
    exact hnil.symm.trans h.reads
  | cons x xs =>
    simp only [withDefault?, hget, Json.nonEmpty?, Option.map_some]
    exact h.reads

theorem optional?_self {write : α → Json} {o : Option α}
    (hget : Entries.get? r.fields field = (o.map write).map Data.ofJson)
    (h : ∀ a, ReadsAs read (write a) a) : r.optional? field read = some o := by
  rw [optional?_of_get? hget fun a _ => h a, Option.map_id']

theorem optional?_text {o : Option String}
    (hget : Entries.get? r.fields field = (o.map Json.string).map Data.ofJson) :
    r.optional? field Data.text? = some o :=
  optional?_self hget .text

/-- A null is read as a missing value. -/
theorem optional?_json {o : Option Json}
    (hget : Entries.get? r.fields field = o.map Data.ofJson) (h : o.all Json.distinct = true) :
    r.optional? field Data.toJson? = some (Json.nonNull? o) := by
  cases o with
  | none => simp [optional?, hget, Json.nonNull?]
  | some j =>
    by_cases hj : j = .null
    · subst hj
      simp only [optional?, hget]
      rfl
    · simp only [optional?, hget, Option.map_some, Data.optional?_ofJson _ hj,
        Data.toJson?_ofJson h, Json.nonNull?_of_ne_null hj]

end Record

/-- A record is read back when its fields are. -/
theorem ReadsAs.record {read : Data → Option α} {names : List FieldName} {rest : Record → Option α}
    {fields : List (String × Option Json)} {a : α}
    (hread : ∀ d, read d = (Record.ofData? names d).bind rest)
    (hn : Entries.keys fields = names.map (·.name)) (hd : (names.map (·.name)).Nodup)
    (h : ∀ r : Record, r.Has fields → rest r = some a) : ReadsAs read (Json.record fields) a := by
  obtain ⟨r, hr, hhas⟩ := Record.ofData?_record hn hd
  exact ⟨nofun, by rw [hread, hr, Option.bind_some, h r hhas]⟩

end ApiDescription
