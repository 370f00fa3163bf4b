import ApiDescription.Document.Reference
import ApiDescription.Proofs.Data.ReadBack

/-!
# Reading references back

What may be given in place or by reference is read as a reference first. A reference is read back as
one, and a value given in place as that value when its written form cannot be taken for a reference:
it is an object without a text under `$ref` (`OrReference.readsAs`).
-/

set_option autoImplicit false

namespace ApiDescription

variable {α β : Type}

namespace OrReference

/-- The reference, or `f` of the value that is given in place. -/
def map (f : α → β) : OrReference α → OrReference β
  | .reference target => .reference target
  | .inline value => .inline (f value)

@[simp] theorem map_id : (map fun a : α => a) = fun x => x := by
  funext x
  cases x <;> rfl

/-- A value that is given in place satisfies `p`. -/
def all (p : α → Bool) : OrReference α → Bool
  | .reference _ => true
  | .inline value => p value

/-- The target of an object is the text under `$ref`, whatever else it has. -/
theorem target?_object {ms : List (String × Json)} (hd : (Entries.keys ms).Nodup) :
    target? (Data.ofJson (.object ms)) =
      (Entries.get? ms "$ref").bind fun j => (Data.ofJson j).text? := by
  have hfields : Entries.get? (ms.filter fun m => [FieldName.mk "$ref" false].any (·.name == m.1))
      "$ref" = Entries.get? ms "$ref" := by
    induction ms with
    | nil => rfl
    | cons m ms ih =>
      obtain ⟨k, v⟩ := m
      by_cases hk : k = "$ref"
      · simp [hk, Entries.get?]
      · simpa [List.filter_cons, Ne.symm hk, hk, Entries.get?] using ih (List.nodup_cons.1 hd).2
  simp only [target?, Data.ofJson, Record.ofData?, Data.entries?, Option.bind_eq_bind,
    Option.bind_some, Record.known?_ofMembers _ hd, Option.map_some, Record.required?,
    Entries.get?_mapValues, hfields, Option.bind_map, Function.comp_def]

theorem target?_reference (target : String) :
    target? (Data.ofJson (.object [("$ref", .string target)])) = some target := by
  rw [target?_object (by simp [Entries.keys])]
  rfl

/-- A record that has no field `$ref` is no reference. -/
theorem target?_record {fields : List (String × Option Json)} (hd : (Entries.keys fields).Nodup)
    (href : "$ref" ∉ Entries.keys fields) : target? (Data.ofJson (Json.record fields)) = none := by
  have hsub := Json.keys_present_sublist fields
  have hnone := (Entries.get?_eq_none_iff _ _).2 fun h => href (hsub.subset h)
  rw [Json.record, target?_object (hsub.nodup hd), hnone, Option.bind_none]

end OrReference

/-! ## Values given in place -/

/-- `read` reads the written form as `a`, and nobody takes it for a reference. -/
structure ReadsInPlace (read : Data → Option α) (j : Json) (a : α) : Prop
    extends ReadsAs read j a where
  notReference : OrReference.target? (Data.ofJson j) = none

/-- A record without a field `$ref` is read back in place when its fields are. -/
theorem ReadsInPlace.record {read : Data → Option α} {names : List FieldName}
    {rest : Record → Option α} {fields : List (String × Option Json)} {a : α}
    (hread : ∀ d, read d = (Record.ofData? names d).bind rest)
    (hn : Entries.keys fields = names.map (·.name))
    (hd : (names.map (·.name)).Nodup ∧ "$ref" ∉ names.map (·.name))
    (h : ∀ r : Record, r.Has fields → rest r = some a) :
    ReadsInPlace read (Json.record fields) a :=
  { ReadsAs.record hread hn hd.1 h with
    notReference := OrReference.target?_record (hn ▸ hd.1) (hn ▸ hd.2) }

/-- A reference is read back, and so is a value that is read back in place. -/
theorem OrReference.readsAs {write : α → Json} {read : Data → Option β} {f : α → β}
    {x : OrReference α} (h : ∀ a, x = .inline a → ReadsInPlace read (write a) (f a)) :
    ReadsAs (OrReference.ofData? read) (x.toJson write) (x.map f) := by
  cases x with
  | reference target =>
    refine ⟨nofun, ?_⟩
    simp only [ofData?, toJson, Data.typed?_ofJson, Option.bind_some, target?_reference]
    rfl
  | inline a =>
    have ha := h a rfl
    refine ⟨ha.notNull, ?_⟩
    simp only [ofData?, toJson, Data.typed?_ofJson, Option.bind_some, ha.notReference, ha.reads]
    rfl

theorem OrReference.readsAs_of_all {write : α → Json} {read : Data → Option β} {f : α → β}
    {p : α → Bool} {x : OrReference α} (hx : x.all p = true)
    (h : ∀ a, p a = true → ReadsInPlace read (write a) (f a)) :
    ReadsAs (OrReference.ofData? read) (x.toJson write) (x.map f) :=
  readsAs fun a ha => h a (by subst ha; exact hx)

/-- A map of references and values is read back. -/
theorem ReadsAs.components {write : α → Json} {read : Data → Option β} {f : α → β} {p : α → Bool}
    {es : List (String × OrReference α)} (hd : Entries.distinct (OrReference.all p) es = true)
    (h : ∀ a, p a = true → ReadsInPlace read (write a) (f a)) :
    ReadsAs (Data.mapOf? (OrReference.ofData? read)) (Json.mapOf (OrReference.toJson write) es)
      (Entries.mapValues (OrReference.map f) es) :=
  .mapOf_of_distinct hd fun _ hx => OrReference.readsAs_of_all hx h

end ApiDescription
