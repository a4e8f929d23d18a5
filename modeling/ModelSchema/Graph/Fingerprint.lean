import ModelSchema.Digest.Sha256
import ModelSchema.Graph.Basic

/-!
# The data form of a graph

A graph is written as JSON with its fields in a fixed order. The fingerprint of a graph is the
digest of that text, so two graphs with one fingerprint are in practice equal.
-/

namespace ModelSchema.Graph

/-! ## Writing

Every field is written, under one name and in one place. A missing text or number is `null`. -/

def natJson : Option Nat → Json
  | some n => .nat n
  | none => .null

def textsJson (texts : List String) : Json :=
  .array (texts.map .text)

def Domain.toJson (domain : Domain) : Json :=
  .object
    [("code", .text domain.code),
      ("label", .ofText? domain.label),
      ("data_type", .ofText? domain.dataType),
      ("persistent_type", .ofText? domain.persistentType),
      ("length", natJson domain.length),
      ("precision", natJson domain.precision),
      ("file", .text domain.file)]

def Model.toJson (model : Model) : Json :=
  .object
    [("name", .text model.name),
      ("label", .ofText? model.label),
      ("file", .text model.file),
      ("domains", textsJson model.domains),
      ("namespaces", .array (model.namespaces.map .nat))]

def Namespace.toJson (n : Namespace) : Json :=
  .object
    [("name", .text n.name),
      ("label", .ofText? n.label),
      ("comment", .ofText? n.comment),
      ("creator", .ofText? n.creator),
      ("is_persistent", .bool n.isPersistent),
      ("file", .text n.file),
      ("classes", .array (n.classes.map .nat)),
      ("uses", textsJson n.uses.names)]

def Kind.toJson : Kind → Json
  | primitive => .object [("kind", .text "primitive")]
  | reference target => .object [("kind", .text "reference"), ("target", .nat target)]
  | referenceList target => .object [("kind", .text "reference_list"), ("target", .nat target)]
  | composition target isCollection =>
    .object
      [("kind", .text "composition"), ("target", .nat target),
        ("is_collection", .bool isCollection)]

def Property.toJson (property : Property) : Json :=
  .object
    [("name", .text property.name),
      ("comment", .ofText? property.comment),
      ("data_type", .ofText? property.dataType),
      ("domain", .ofText? property.domain),
      ("data_member", .object
        [("name", .ofText? property.column), ("is_required", .bool property.isRequired)]),
      ("is_primary_key", .bool property.isPrimaryKey),
      ("is_unique", .bool property.isUnique),
      ("is_unique_many", .bool property.isUniqueMany),
      ("is_persistent", .bool property.isPersistent),
      ("is_ordered", .bool property.isOrdered),
      ("persistent_type", .ofText? property.persistentType),
      ("role", .ofText? property.role),
      ("kind", property.kind.toJson)]

/-- A class. Items are left out if there are none. -/
def Class.toJson (c : Class) : Json :=
  .object <|
    [("name", .text c.name),
      ("label", .ofText? c.label),
      ("comment", .ofText? c.comment),
      ("stereotype", .text c.stereotype.key),
      ("data_contract", .object
        [("name", .text c.table), ("is_persistent", .bool c.isPersistent)]),
      ("properties", .array (c.properties.map Property.toJson)),
      ("parent", natJson c.parent),
      ("trigram", .ofText? c.trigram),
      ("storage", .ofText? c.storage),
      ("is_historized", .bool c.isHistorized),
      ("is_audited", .bool c.isAudited),
      ("is_export_delta_tracked", .bool c.isExportDelta),
      ("namespace", .nat c.home),
      ("file", .text c.file)]
    ++ if c.items.isEmpty then []
      else [("constant_values", .array (c.items.map Seed.Item.toJson))]

def toJson (graph : Graph) : Json :=
  .object
    [("models", .array (graph.models.map Model.toJson)),
      ("namespaces", .array (graph.namespaces.map Namespace.toJson)),
      ("classes", .array (graph.classes.map Class.toJson)),
      ("domains",
        .object (graph.domains.entries.map fun (code, domain) => (code, domain.toJson)))]

/-- The digest of the compact text of a graph. -/
def fingerprint (graph : Graph) : String :=
  Digest.Sha256.hex graph.toJson.render.toUTF8.toList

/-! ## Reading

Fields are found by name. Those that may be `null` may also be missing. -/

def Domain.ofJson? (json : Json) : Option Domain := do
  let record ← json.record?
    ["code", "label", "data_type", "persistent_type", "length", "precision", "file"]
  return {
    code := ← record.required "code" Json.asText?
    label := ← record.optional "label" Json.asText?
    dataType := ← record.optional "data_type" Json.asText?
    persistentType := ← record.optional "persistent_type" Json.asText?
    length := ← record.optional "length" Json.asNat?
    precision := ← record.optional "precision" Json.asNat?
    file := ← record.required "file" Json.asText? }

def Model.ofJson? (json : Json) : Option Model := do
  let record ← json.record? ["name", "label", "file", "domains", "namespaces"]
  return {
    name := ← record.required "name" Json.asText?
    label := ← record.optional "label" Json.asText?
    file := ← record.required "file" Json.asText?
    domains := ← record.required "domains" (Json.asList? Json.asText?)
    namespaces := ← record.required "namespaces" (Json.asList? Json.asNat?) }

def Namespace.ofJson? (json : Json) : Option Namespace := do
  let record ← json.record?
    ["name", "label", "comment", "creator", "is_persistent", "file", "classes", "uses"]
  return {
    name := ← record.required "name" Json.asText?
    label := ← record.optional "label" Json.asText?
    comment := ← record.optional "comment" Json.asText?
    creator := ← record.optional "creator" Json.asText?
    isPersistent := ← record.required "is_persistent" Json.asBool?
    file := ← record.required "file" Json.asText?
    classes := ← record.required "classes" (Json.asList? Json.asNat?)
    uses := .ofList (← record.required "uses" (Json.asList? Json.asText?)) }

def Kind.ofJson? (json : Json) : Option Kind := do
  let target := (json.field? "target").bind Json.asNat?
  match (json.field? "kind").bind Json.asText? with
  | some "primitive" => some .primitive
  | some "reference" => target.map .reference
  | some "reference_list" => target.map .referenceList
  | some "composition" =>
    some (.composition (← target) (← (json.field? "is_collection").bind Json.asBool?))
  | _ => none

def Property.ofJson? (json : Json) : Option Property := do
  let record ← json.record?
    ["name", "comment", "data_type", "domain", "data_member", "is_primary_key", "is_unique",
      "is_unique_many", "is_persistent", "is_ordered", "persistent_type", "role", "kind"]
  let member ← record.required "data_member" (Json.record? ["name", "is_required"])
  return {
    name := ← record.required "name" Json.asText?
    comment := ← record.optional "comment" Json.asText?
    dataType := ← record.optional "data_type" Json.asText?
    domain := ← record.optional "domain" Json.asText?
    column := ← member.optional "name" Json.asText?
    isRequired := ← member.required "is_required" Json.asBool?
    isPrimaryKey := ← record.required "is_primary_key" Json.asBool?
    isUnique := ← record.required "is_unique" Json.asBool?
    isUniqueMany := ← record.required "is_unique_many" Json.asBool?
    isPersistent := ← record.required "is_persistent" Json.asBool?
    isOrdered := ← record.required "is_ordered" Json.asBool?
    persistentType := ← record.optional "persistent_type" Json.asText?
    role := ← record.optional "role" Json.asText?
    kind := ← record.required "kind" Kind.ofJson? }

def Class.ofJson? (json : Json) : Option Class := do
  let record ← json.record?
    ["name", "label", "comment", "stereotype", "data_contract", "properties", "parent", "trigram",
      "storage", "is_historized", "is_audited", "is_export_delta_tracked", "namespace", "file",
      "constant_values"]
  let contract ← record.required "data_contract" (Json.record? ["name", "is_persistent"])
  return {
    name := ← record.required "name" Json.asText?
    label := ← record.optional "label" Json.asText?
    comment := ← record.optional "comment" Json.asText?
    stereotype := ← record.required "stereotype" fun json => json.asCase?.bind Stereotype.ofKey?
    table := ← contract.required "name" Json.asText?
    isPersistent := ← contract.required "is_persistent" Json.asBool?
    properties := ← record.required "properties" (Json.asList? Property.ofJson?)
    parent := ← record.optional "parent" Json.asNat?
    trigram := ← record.optional "trigram" Json.asText?
    storage := ← record.optional "storage" Json.asText?
    isHistorized := ← record.required "is_historized" Json.asBool?
    isAudited := ← record.required "is_audited" Json.asBool?
    isExportDelta := ← record.required "is_export_delta_tracked" Json.asBool?
    home := ← record.required "namespace" Json.asNat?
    file := ← record.required "file" Json.asText?
    items := ← record.defaulted "constant_values" (Json.asList? Seed.Item.ofJson?) [] }

def ofJson? (json : Json) : Option Graph := do
  let record ← json.record? ["models", "namespaces", "classes", "domains"]
  return {
    models := ← record.required "models" (Json.asList? Model.ofJson?)
    namespaces := ← record.required "namespaces" (Json.asList? Namespace.ofJson?)
    classes := ← record.required "classes" (Json.asList? Class.ofJson?)
    domains := ← record.required "domains" (Json.asCatalog? Domain.ofJson?) }

end ModelSchema.Graph
