import ApiDescription.Operation.Written
import ApiDescription.Proofs.Operation.Checked
import ApiDescription.Proofs.Schema.Properties

/-!
# Parameters of compiled operations

A document lists the parameters of an operation with their locations. Those in the path are its placeholders,
whether the operation has a schema for its params or not: if it has one, compiling has made sure that it covers the
placeholders, and what is no placeholder is left out (`names_pathParameterObjects`). The others are the properties
of the schemas for query and headers, so no two parameters share their name and location (`fits_of_compile`).
The names of a path are read once to check it and again when they are asked for; the second reader checks nothing,
and gives what the first one gave (`placeholders_agree`).
-/

set_option autoImplicit false

namespace ApiDescription

open scoped List

/-! ## Schemas of the request -/

/-- The schema that a step gives for a slot of the request. -/
def OperationStep.requestSchema? (slot : SchemaSlot) : OperationStep → Option Schema
  | .params s => if slot = .params then some s else none
  | .query s => if slot = .query then some s else none
  | .body s => if slot = .body then some s else none
  | .headers s => if slot = .headers then some s else none
  | _ => none

/-- A value that the steps give last is given by one of them. -/
theorem OperationStep.exists_of_last {α : Type} {give : OperationStep → Option α} {steps : List OperationStep}
    {a : α} (h : OperationStep.last give steps = some a) : ∃ step ∈ steps, give step = some a := by
  obtain ⟨step, hstep, hgive⟩ := List.exists_of_findSome?_eq_some h
  exact ⟨step, List.mem_reverse.1 hstep, hgive⟩

namespace OperationDraft

/-- The schema in a slot of the request. -/
def requestSchema? (d : OperationDraft) : SchemaSlot → Option Schema
  | .params => d.params
  | .query => d.query
  | .body => d.body
  | .headers => d.headers
  | .response _ | .responseHeaders _ => none

theorem requestSchema?_applyAll (d : OperationDraft) (steps : List OperationStep) (slot : SchemaSlot) :
    (d.applyAll steps).requestSchema? slot =
      (OperationStep.last (OperationStep.requestSchema? slot) steps).or (d.requestSchema? slot) := by
  refine last_applyAll _ (fun d => d.requestSchema? slot) (fun d step => ?_) d steps
  cases step with
  | respond | respondSuccess | respondError | standardErrors =>
    rw [(registers_apply d rfl).frame]
    cases slot <;> rfl
  | _ => cases slot <;> rfl

end OperationDraft

/-- No name stands twice among the properties of a schema that was built, and a missing schema has none. -/
theorem Schema.nodup_propertiesOf [PatternReader] {schema : Option Schema} (h : ∀ s, schema = some s → s.Built) :
    (Entries.keys (propertiesOf schema)).Nodup := by
  unfold propertiesOf
  cases schema with
  | none => exact List.nodup_nil
  | some s =>
    cases hps : s.properties? with
    | none => simp [hps, Entries.keys]
    | some ps => simpa [hps] using (h s rfl).nodup_properties hps

/-! ## Parameters by location -/

namespace Operation

variable {o : Operation}

theorem of_mem_pathParameterObjects {p : Parameter} (hp : p ∈ o.pathParameterObjects) :
    p.location = .path ∧ p.required = true := by
  unfold pathParameterObjects at hp
  split at hp
  · obtain ⟨q, -, rfl⟩ := List.mem_map.1 hp
    exact ⟨rfl, rfl⟩
  · obtain ⟨name, -, rfl⟩ := List.mem_map.1 hp
    exact ⟨rfl, rfl⟩

/-- The parameters in the path are the placeholders. -/
theorem names_pathParameterObjects [PatternReader] {names : List String}
    (htemplate : PathTemplate.IsTemplate o.path names)
    (hcovered : ∀ s, o.params = some s →
      ∃ ps, s.properties? = some ps ∧ ∀ name ∈ names, name ∈ ps.map Prod.fst)
    (hbuilt : ∀ s, o.params = some s → s.Built) : o.pathParameterObjects.map (·.name) ~ names := by
  have hnames : o.pathParameters = names := htemplate.parameters_eq
  cases hparams : o.params with
  | none =>
    have hlist : o.pathParameterObjects.map (·.name) = names := by
      rw [pathParameterObjects, hparams, hnames]
      exact (List.map_map).trans (List.map_id _)
    rw [hlist]
  | some s =>
    obtain ⟨ps, hps, hall⟩ := hcovered s hparams
    have hlist : o.pathParameterObjects.map (·.name) = (Entries.keys ps).filter (names.contains ·) := by
      rw [pathParameterObjects, hparams, Option.bind_some, hps, hnames, Entries.keys, List.filter_map]
      exact List.map_map
    have hnodup : (Entries.keys ps).Nodup := (hbuilt s hparams).nodup_properties hps
    rw [hlist, List.perm_ext_iff_of_nodup (hnodup.filter _) htemplate.nodup]
    intro name
    rw [List.mem_filter, List.contains_iff_mem]
    exact ⟨And.right, fun hname => ⟨hall name hname, hname⟩⟩

/-- The parameters in the path, and the others. -/
theorem filter_parameterObjects (o : Operation) :
    o.parameterObjects.filter (·.location = .path) = o.pathParameterObjects := by
  have hpath : o.pathParameterObjects.filter (·.location = .path) = o.pathParameterObjects :=
    List.filter_eq_self.2 fun p hp => decide_eq_true (of_mem_pathParameterObjects hp).1
  have hother (location : ParameterLocation) (h : location ≠ .path) (ps : List (String × Schema)) :
      (ps.map fun p => p.2.toParameter location p.1).filter (·.location = .path) = [] := by
    rw [List.filter_eq_nil_iff]
    intro p hp
    obtain ⟨q, -, rfl⟩ := List.mem_map.1 hp
    exact fun hp => h (of_decide_eq_true hp)
  rw [parameterObjects, List.filter_append, List.filter_append, hpath, hother .query nofun,
    hother .header nofun, List.append_nil, List.append_nil]

/-- The names and locations of all parameters. -/
theorem labels_parameterObjects (o : Operation) : o.parameterObjects.map (fun p => (p.name, p.location)) =
    (o.pathParameterObjects.map (·.name)).map (·, .path) ++
      (Entries.keys (Schema.propertiesOf o.query)).map (·, .query) ++
      (Entries.keys (Schema.propertiesOf o.headers)).map (·, .header) := by
  have hpath : o.pathParameterObjects.map (fun p => (p.name, p.location)) =
      (o.pathParameterObjects.map (·.name)).map (·, .path) := by
    rw [List.map_map]
    refine List.map_congr_left fun p hp => ?_
    rw [(of_mem_pathParameterObjects hp).1]
    rfl
  have hother (location : ParameterLocation) (ps : List (String × Schema)) :
      (ps.map fun p => p.2.toParameter location p.1).map (fun p => (p.name, p.location)) =
        (Entries.keys ps).map (·, location) := by
    rw [Entries.keys, List.map_map, List.map_map]
    rfl
  rw [parameterObjects, List.map_append, List.map_append, hpath, hother, hother]

end Operation

/-! ## Parameters of a path -/

/-- The parameters fit the path. -/
structure PathTemplate.Fits (path : String) (ps : List Parameter) : Prop where
  /-- Those in the path stand for its placeholders, one for each. -/
  placeholders : ∃ names, IsTemplate path names ∧ (ps.filter (·.location = .path)).map (·.name) ~ names
  required : ∀ p ∈ ps, p.location = .path → p.required = true
  /-- No two have the same name and location. -/
  distinct : (ps.map fun p => (p.name, p.location)).Nodup

/-- Where the schemas of the request are built ones, the parameters that a document gives a compiled operation fit
its path, and none of them is a reference. -/
theorem OperationDraft.fits_of_compile [PatternReader] {steps : List OperationStep} {o : Operation}
    (hbuilt : ∀ step ∈ steps, ∀ slot s, step.requestSchema? slot = some s → s.Built)
    (h : (({} : OperationDraft).applyAll steps).compile = .ok o) :
    ∃ ps, o.toObject.parameters = ps.map .inline ∧ PathTemplate.Fits o.path ps := by
  have hpassed := compiles_of_compile h
  have hgiven (slot : SchemaSlot) (s : Schema)
      (hs : (({} : OperationDraft).applyAll steps).requestSchema? slot = some s) : s.Built := by
    have hnone : ({} : OperationDraft).requestSchema? slot = none := by cases slot <;> rfl
    rw [requestSchema?_applyAll, hnone, Option.or_none] at hs
    obtain ⟨step, hstep, hgive⟩ := OperationStep.exists_of_last hs
    exact hbuilt step hstep slot s hgive
  obtain ⟨names, htemplate, hcovered⟩ := hpassed.covered
  have hnames : o.pathParameterObjects.map (·.name) ~ names :=
    Operation.names_pathParameterObjects htemplate hcovered fun s hs => hgiven .params s (hpassed.params.symm.trans hs)
  have hquery : (Entries.keys (Schema.propertiesOf o.query)).Nodup :=
    Schema.nodup_propertiesOf fun s hs => hgiven .query s (hpassed.query.symm.trans hs)
  have hheaders : (Entries.keys (Schema.propertiesOf o.headers)).Nodup :=
    Schema.nodup_propertiesOf fun s hs => hgiven .headers s (hpassed.headers.symm.trans hs)
  refine ⟨o.parameterObjects, rfl, ?_⟩
  constructor
  case placeholders => exact ⟨names, htemplate, by rwa [Operation.filter_parameterObjects]⟩
  case required =>
    intro p hp hlocation
    have hmem : p ∈ o.parameterObjects.filter (·.location = .path) :=
      List.mem_filter.2 ⟨hp, decide_eq_true hlocation⟩
    rw [Operation.filter_parameterObjects] at hmem
    exact (Operation.of_mem_pathParameterObjects hmem).2
  case distinct =>
    have hlabel (location : ParameterLocation) {l : List String} (hl : l.Nodup) :
        (l.map (·, location)).Nodup := hl.map fun a b hab => (Prod.mk.inj hab).1
    rw [Operation.labels_parameterObjects, List.append_assoc, List.nodup_append', List.nodup_append']
    refine ⟨hlabel .path (hnames.nodup_iff.2 htemplate.nodup), ⟨hlabel .query hquery, hlabel .header hheaders, ?_⟩, ?_⟩
    · simp [List.Disjoint]
    · simp [List.Disjoint]

attribute [local instance] PatternReader.lenient

/-- Params that list a placeholder, a name that is none and the other placeholder, with a query and headers of the
same names. -/
theorem OperationDraft.fits_of_compile_item :
    let text := Schema.string.refine .required
    let params := Schema.ofProperties [("item", text), ("color", text), ("shop", text)]
    let others := Schema.ofProperties [("shop", text), ("color", text)]
    let steps : List OperationStep :=
      [.params others, .query others, .route .get "/\x7bshop\x7d/items/\x7bitem\x7d", .params params, .headers others]
    (∀ step ∈ steps, ∀ slot s, step.requestSchema? slot = some s → s.Built) ∧
      ∃ o, (({} : OperationDraft).applyAll steps).compile = .ok o ∧
        ∃ ps, o.toObject.parameters = ps.map .inline ∧ PathTemplate.Fits o.path ps := by
  intro text params others steps
  have htext : text.Built := .refine (.primitive .string) trivial (by simp [Refinement.schemas])
  have hparams : params.Built := .fresh (.object _) (by simp [htext])
  have hothers : others.Built := .fresh (.object _) (by simp [htext])
  have hbuilt : ∀ step ∈ steps, ∀ slot s, step.requestSchema? slot = some s → s.Built := by
    simp [steps, OperationStep.requestSchema?, hparams, hothers]
  have hok : (({} : OperationDraft).applyAll steps).compile.isOk = true := by decide +kernel
  obtain ⟨o, ho⟩ := exists_ok_of_isOk hok
  exact ⟨hbuilt, o, ho, fits_of_compile hbuilt ho⟩

/-! ## Both readers of a path -/

theorem OperationDraft.placeholders_of_compile {d : OperationDraft} {o : Operation} (h : d.compile = .ok o) :
    PathTemplate.placeholders o.path = .ok o.pathParameters := by
  have hpassed := compiles_of_compile h
  obtain ⟨names, htemplate, -⟩ := hpassed.covered
  have hnames : o.pathParameters = names := htemplate.parameters_eq
  rw [hnames]
  exact (PathTemplate.placeholders_ok_iff o.path names).2 htemplate

-- a route alone has no schema that a check could refuse, so only its path decides
theorem OperationDraft.exists_compile_route {path : String} {names : List String}
    (h : PathTemplate.IsTemplate path names) (method : Method) :
    ∃ o, (({} : OperationDraft).applyAll [.route method path]).compile = .ok o ∧ o.path = path := by
  let d := ({} : OperationDraft).applyAll [.route method path]
  have herrors : d.checkErrors = .ok () := checkErrors_ok_iff.2 rfl
  have hmethod : d.checkMethod = .ok method := checkMethod_ok_iff.2 rfl
  have hpath : d.checkPath = .ok names := checkPath_ok_iff.2 h
  have hrest : ∃ o, d.compile = .ok o :=
    ⟨_, bind_ok_iff.2 ⟨(), herrors, bind_ok_iff.2 ⟨method, hmethod, bind_ok_iff.2 ⟨names, hpath, rfl⟩⟩⟩⟩
  obtain ⟨o, ho⟩ := hrest
  exact ⟨o, ho, (compiles_of_compile ho).path⟩

/-- The reader of placeholders takes exactly the templates, and gives their names. Every template is the path of an
operation that compiles, and the path parameters of a compiled operation are the placeholders of its path. -/
theorem Operation.placeholders_agree (path : String) (names : List String) :
    (PathTemplate.placeholders path = .ok names ↔ PathTemplate.IsTemplate path names) ∧
      (∀ (d : OperationDraft) (o : Operation), d.compile = .ok o →
        PathTemplate.placeholders o.path = .ok o.pathParameters) ∧
      (PathTemplate.placeholders path = .ok names → ∀ method, ∃ o,
        (({} : OperationDraft).applyAll [.route method path]).compile = .ok o ∧ o.path = path ∧
          o.pathParameters = names) := by
  refine ⟨PathTemplate.placeholders_ok_iff path names, fun d o => OperationDraft.placeholders_of_compile, ?_⟩
  intro h method
  have htemplate := (PathTemplate.placeholders_ok_iff path names).1 h
  obtain ⟨o, ho, hpath⟩ := OperationDraft.exists_compile_route htemplate method
  have hparameters : o.pathParameters = names := (hpath.symm ▸ htemplate).parameters_eq
  exact ⟨o, ho, hpath, hparameters⟩

end ApiDescription
