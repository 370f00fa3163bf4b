import ApiDescription.Operation.Security
import ApiDescription.Proofs.Entries.Table

/-!
# What a group of schemes demands

The requirement of a group stays where it was put, whatever comes behind it. It has each scheme of the group, with
the scopes that were listed last for it (`requireAll_stays`), so scopes are lost when a scheme is listed twice
(`repeatedScheme_loses_scope`).
-/

set_option autoImplicit false

namespace ApiDescription

namespace SecurityRequirement

variable {scheme : String} {scopes : List String} {group : List (String × List String)}

/-! ## Demands -/

/-- The requirement needs the scheme, and at least the scopes. -/
def Demands (r : SecurityRequirement) (scheme : String) (scopes : List String) : Prop :=
  ∃ granted ∈ Entries.get? r scheme, scopes ⊆ granted

instance (r : SecurityRequirement) (scheme : String) (scopes : List String) :
    Decidable (r.Demands scheme scopes) := inferInstanceAs (Decidable (∃ _ ∈ _, _))

/-- The scopes that a group lists last for a scheme. -/
def lastScopes (group : List (String × List String)) (scheme : String) : List String :=
  (group.reverse.lookup scheme).getD []

theorem lookup_reverse_of_mem (h : (scheme, scopes) ∈ group) :
    group.reverse.lookup scheme = some (lastScopes group scheme) := by
  have hfound : group.reverse.lookup scheme ≠ none := fun hnone =>
    Entries.lookup_reverse_eq_none_iff.1 hnone (List.mem_map_of_mem h)
  obtain ⟨last, hlast⟩ := Option.ne_none_iff_exists'.1 hfound
  rw [lastScopes, hlast]
  rfl

theorem demands_ofList_iff (h : (scheme, scopes) ∈ group) :
    Demands (Entries.ofList group) scheme scopes ↔ scopes ⊆ lastScopes group scheme := by
  have hget : Entries.get? (Entries.ofList group) scheme = some (lastScopes group scheme) := by
    rw [Entries.get?_ofList, lookup_reverse_of_mem h]
  simp [Demands, hget]

theorem lastScopes_of_nodup (hnodup : (group.map Prod.fst).Nodup) (h : (scheme, scopes) ∈ group) :
    lastScopes group scheme = scopes := by
  rw [lastScopes, Entries.lookup_reverse_eq_some_of_mem hnodup h]
  rfl

/-! ## Lists of requirements -/

/-- The list with the requirements of several terms behind it. -/
def demandAll (rs : List SecurityRequirement) (terms : List SecurityTerm) : List SecurityRequirement :=
  terms.foldl demand rs

/-- What comes later goes behind. -/
theorem demandAll_eq (rs : List SecurityRequirement) (terms : List SecurityTerm) :
    demandAll rs terms = rs ++ terms.flatMap SecurityTerm.requirements := by
  induction terms generalizing rs with
  | nil => exact (List.append_nil rs).symm
  | cons term terms ih =>
    have hrest : demandAll rs (term :: terms) = demandAll (demand rs term) terms := rfl
    rw [hrest, ih, demand, List.append_assoc, List.flatMap_cons]

theorem getElem?_demandAll_requireAll (rs : List SecurityRequirement) (group : List (String × List String))
    (later : List SecurityTerm) :
    (demandAll (demand rs (.requireAll group)) later)[rs.length]? = some (Entries.ofList group) := by
  rw [demandAll_eq, demand, List.append_assoc, List.getElem?_append_right (Nat.le_refl _), Nat.sub_self]
  rfl

/-- The requirement of a group stays at its position, and has the schemes of the group and no others. A scheme has
the scopes listed last for it, so what was listed before for the same scheme is demanded only if it is listed again;
everything is demanded when no scheme is listed twice. -/
theorem requireAll_stays (rs : List SecurityRequirement) (group : List (String × List String))
    (later : List SecurityTerm) :
    ∃ r, (demandAll (demand rs (.requireAll group)) later)[rs.length]? = some r ∧
      (∀ scheme, Entries.get? r scheme = group.reverse.lookup scheme) ∧
      (∀ scheme scopes, (scheme, scopes) ∈ group →
        (Demands r scheme scopes ↔ scopes ⊆ lastScopes group scheme)) ∧
      ((group.map Prod.fst).Nodup → ∀ scheme scopes, (scheme, scopes) ∈ group → Demands r scheme scopes) := by
  refine ⟨Entries.ofList group, getElem?_demandAll_requireAll rs group later, Entries.get?_ofList group, ?_, ?_⟩
  · intro scheme scopes h
    exact demands_ofList_iff h
  · intro hnodup scheme scopes h
    rw [demands_ofList_iff h, lastScopes_of_nodup hnodup h]
    exact List.Subset.refl scopes

/-- A group of two schemes between a public list and two later terms. -/
theorem requireAll_stays_tenant :
    let group := [("oauth", ["read", "write"]), ("tenant", [])]
    let later : List SecurityTerm := [.anyOf ["key", "oauth"], .extend [[("oauth", [])]]]
    (("oauth", ["read", "write"]) ∈ group ∧ (group.map Prod.fst).Nodup) ∧
      ∃ r, (demandAll (demand [[("key", [])]] (.requireAll group)) later)[1]? = some r ∧
        Demands r "oauth" ["read", "write"] := by
  intro group later
  have hmem : ("oauth", ["read", "write"]) ∈ group := by decide
  have hnodup : (group.map Prod.fst).Nodup := by decide
  obtain ⟨r, hr, -, -, hall⟩ := requireAll_stays [[("key", [])]] group later
  exact ⟨⟨hmem, hnodup⟩, r, hr, hall hnodup "oauth" ["read", "write"] hmem⟩

/-- A group does not always demand all that it lists: of two entries for one scheme, the first is lost. -/
theorem repeatedScheme_loses_scope :
    ¬ ∀ (rs : List SecurityRequirement) (group : List (String × List String)) (later : List SecurityTerm),
      ∃ r, (demandAll (demand rs (.requireAll group)) later)[rs.length]? = some r ∧
        ∀ p ∈ group, Demands r p.1 p.2 := by
  intro h
  obtain ⟨r, hr, hall⟩ := h [] [("oauth", ["read"]), ("oauth", ["write"])] []
  have hlast : r = [("oauth", ["write"])] := (Option.some_inj.1 hr).symm
  subst hlast
  have hread : Demands [("oauth", ["write"])] "oauth" ["read"] := hall ("oauth", ["read"]) (by simp)
  exact absurd hread (by decide)

end SecurityRequirement

end ApiDescription
