import Swimlane.Proofs.Flow.Numbered
import Swimlane.Proofs.Outline.Declaration
import Swimlane.Proofs.Outline.Pairing

/-!
# Messages of a process graph

Nothing that is sent or received is lost: each pair of a message becomes one connection with its
label, and each element that is left over is listed and reported on its line.

## Main definitions

* `WaitingMessage.leftOver`: the elements of a message that find no other side;
* `Document.messages`: the elements of a document that are sides of messages;
* `ProcessGraph.JoinsMessages`: what becomes of the messages of an outline.

## Main statements

* `ProcessGraph.connection_of_paired`: a pair is one connection;
* `Outline.filter_diagnostics`, `Outline.filter_unmatched`: the warnings about messages;
* `Draft.Paired.filter_waiting`: only one side of a message waits;
* `ProcessGraph.ofText_joinsMessages`: the messages of every text.
-/

namespace Swimlane

open WaitingMessage (ofSide pairs)

/-! ## Edges of pairs -/

theorem Event.mem_pairs_iff {events : List Event} {sender receiver label : String} :
    (sender, receiver) ∈ events.filterMap (Event.pair? label) ↔
      .messagePaired sender receiver label ∈ events := by
  rw [List.mem_filterMap]
  constructor
  · rintro ⟨ev, hev, pair⟩
    cases ev <;> simp only [pair?, Option.ite_none_right_eq_some, Option.some.injEq,
      Prod.mk.injEq, reduceCtorEq] at pair
    obtain ⟨rfl, rfl, rfl⟩ := pair
    exact hev
  · exact fun h => ⟨_, h, by simp [pair?]⟩

namespace Threads

variable {doc : Document} {t : Threads} {events : List Event}

/-- Message flow is drawn by pairs, with their label. -/
theorem paired_of_mem_run {edge : Edge} (h : edge ∈ run doc t events)
    (kind : edge.kind = .messageFlow) :
    ∃ label, edge.label = some label ∧ .messagePaired edge.source edge.target label ∈ events := by
  obtain ⟨before, ev, start, drawn⟩ := exists_step_of_mem_run h
  have hev : ev ∈ events := start.subset (by simp)
  cases draws_step drawn with
  | messagePaired sender receiver label => exact ⟨label, rfl, hev⟩
  | declared | branchOpened | branchStep => cases kind

theorem mem_run_of_paired {sender receiver label : String}
    (h : .messagePaired sender receiver label ∈ events) :
    { kind := .messageFlow, source := sender, target := receiver, label := some label } ∈
      run doc t events := by
  induction events generalizing t with
  | nil => cases h
  | cons ev events ih =>
    rw [run, List.mem_append]
    rcases List.mem_cons.1 h with rfl | rest
    · exact .inl (by simp [step])
    · exact .inr (ih rest)

end Threads

theorem Element.eq_of_message? {e : Element} {m : WaitingMessage} (h : e.message? = some m) :
    e.id = m.element ∧ e.order = m.order ∧ e.line = m.line := by
  unfold message? at h
  split at h
  · exact Option.some.inj h ▸ ⟨rfl, rfl, rfl⟩
  · cases h

theorem WaitingMessage.mem_ofSide {label : String} {side : Side} {m : WaitingMessage}
    {messages : List WaitingMessage} :
    m ∈ ofSide label side messages ↔ m ∈ messages ∧ m.label = label ∧ m.side = side := by
  simp [ofSide]

namespace Draft

variable {d : Draft}

theorem mem_messages {m : WaitingMessage} (h : m ∈ d.messages) :
    ∃ e ∈ d.elements, e.id = m.element ∧ e.message? = some m := by
  obtain ⟨e, he, hm⟩ := List.mem_filterMap.1 h
  exact ⟨e, he, (Element.eq_of_message? hm).1, hm⟩

/-- Messages are in order by a number that they share with their elements. -/
theorem pairwise_messages {key : Element → Nat} {key' : WaitingMessage → Nat}
    (same : ∀ e m, e.message? = some m → key e = key' m)
    (h : d.elements.Pairwise fun x y => key x < key y) :
    d.messages.Pairwise fun x y => key' x < key' y := by
  refine h.filterMap _ fun x y lt m hm n hn => ?_
  rwa [← same x m hm, ← same y n hn]

/-- An element that is paired has one label. -/
theorem Paired.label_eq (hd : d.Paired) (hr : d.Registered) {sender receiver receiver' : String}
    {label label' : String} (h : .messagePaired sender receiver label ∈ d.events)
    (h' : .messagePaired sender receiver' label' ∈ d.events) : label = label' := by
  have sent {receiver label : String} (h : .messagePaired sender receiver label ∈ d.events) :
      ∃ e ∈ d.elements, e.id = sender ∧ ∃ m, e.message? = some m ∧ m.label = label := by
    have pair := Event.mem_pairs_iff.2 h
    rw [hd.events, pairs, List.mem_map] at pair
    obtain ⟨⟨s, r⟩, mem, ends⟩ := pair
    obtain ⟨hs, same, -⟩ := WaitingMessage.mem_ofSide.1 (List.of_mem_zip mem).1
    obtain ⟨e, he, id, hm⟩ := mem_messages hs
    exact ⟨e, he, id.trans (congrArg Prod.fst ends), s, hm, same⟩
  obtain ⟨e, he, id, m, hm, rfl⟩ := sent h
  obtain ⟨e', he', id', m', hm', rfl⟩ := sent h'
  obtain rfl := List.inj_on_of_nodup_map hr.elementIds_nodup he he' (id.trans id'.symm)
  rw [Option.some.inj (hm.symm.trans hm')]

end Draft

/-- A pair of a message is one connection, and it has the label of the message. -/
theorem ProcessGraph.connection_of_paired {o : Outline} {sender receiver label : String}
    (h : .messagePaired sender receiver label ∈ o.events)
    (unique : ∀ label', .messagePaired sender receiver label' ∈ o.events → label' = label) :
    ∃ c, (ofOutline o).connections.filter (fun c => c.kind = .messageFlow &&
        c.source = sender && c.target = receiver) = [c] ∧ c.label = some label := by
  let key : ConnectionKind × String × String := (.messageFlow, sender, receiver)
  -- The pair draws an edge, so one of the log comes first, and all of these have the label.
  obtain ⟨edge, found⟩ : ∃ edge,
      (Threads.run o.document {} o.events).find? (·.key = key) = some edge := by
    refine Option.isSome_iff_exists.1 (List.find?_isSome.2 ?_)
    exact ⟨_, Threads.mem_run_of_paired h, by simp [Edge.key, key]⟩
  have hkey : edge.key = key := by simpa using List.find?_some found
  obtain ⟨kind, source, target⟩ : edge.kind = .messageFlow ∧ edge.source = sender ∧
      edge.target = receiver := by simpa [Edge.key, key] using hkey
  obtain ⟨label', drawn, paired⟩ :=
    Threads.paired_of_mem_run (List.mem_of_find?_eq_some found) kind
  rw [source, target] at paired
  have first : (Flow.emitted o.document o.events o.references).find? (·.key = key) = some edge := by
    simp [Flow.emitted, List.find?_append, found]
  obtain ⟨c, only, same⟩ := Flow.exists_connection _ _ _ first
  have own : c.label = edge.label := congrArg Edge.label same
  exact ⟨c, only, by rw [own, drawn, unique label' paired]⟩

/-! ## Warnings -/

/-- A warning that does not have to wait for the end. -/
abbrev Diagnostic.IsEarly (x : Diagnostic) : Prop := x.kind.isLate = false

theorem Reader.warnings_isEarly_read (limit : Nat) (r : Reader) (p : Text.Piece) :
    ∀ x ∈ (r.read limit p).warnings, x.IsEarly := by
  have measured : ∀ x ∈ (r.measure (.ofChars (Text.indentation p.chars)) p.number
      (Line.spanOf p)).2, x.IsEarly := by
    unfold measure
    split <;> simp [Finding.toDiagnostic, Finding.kind, Diagnostic.IsEarly, DiagnosticKind.isLate]
  have sigil : ∀ x ∈ Line.sigilWarning p, x.IsEarly := by
    unfold Line.sigilWarning
    split
    · split <;> simp [Finding.toDiagnostic, Finding.kind, Diagnostic.IsEarly, DiagnosticKind.isLate]
    · simp
  intro x hx
  unfold read at hx
  split at hx
  · cases hx
  · simp only at hx
    split at hx
    · exact measured x hx
    · exact (List.mem_append.1 hx).elim (measured x) (sigil x)

/-- No warning is given too early while a text is read. -/
theorem scan_warnings_isEarly (limit : Nat) (text : String) :
    ∀ x ∈ (scan limit text).warnings, x.IsEarly := by
  unfold scan
  generalize ({} : Reader) = r, Text.pieces text.toList = ps
  induction ps generalizing r with
  | nil => simp [Reader.readAll]
  | cons p ps ih =>
    have first := r.warnings_isEarly_read limit p
    rw [Reader.readAll]
    cases (r.read limit p).outcome with
    | error failure => exact first
    | ok line => exact fun x hx => (List.mem_append.1 hx).elim (first x) (ih _ x)

namespace Draft

variable {d d' : Draft} {l : Line}

theorem duplicateWarning_isEarly (d : Draft) (lane : LaneHeader) (e : Element) :
    ∀ x ∈ d.duplicateWarning lane e, x.IsEarly := by
  unfold duplicateWarning
  split <;> simp [Finding.toDiagnostic, Finding.kind, Diagnostic.IsEarly, DiagnosticKind.isLate]

theorem Closes.diagnostics (h : Closes d d') : d'.diagnostics = d.diagnostics := by
  cases h <;> rfl

theorem Prepares.diagnostics_isEarly (h : Prepares l d d') (hd : ∀ x ∈ d.diagnostics, x.IsEarly) :
    ∀ x ∈ d'.diagnostics, x.IsEarly := by
  cases h with
  | named | broken | connected => exact hd
  | closed h => exact h.diagnostics ▸ hd
  | entered name => exact openLane_diagnostics d name ▸ hd
  | warned f hf =>
    intro x hx
    rcases List.mem_append.1 hx with old | new
    · exact hd x old
    · exact List.mem_singleton.1 new ▸ hf.1

theorem Declares.diagnostics_isEarly (h : Declares l d d') (hd : ∀ x ∈ d.diagnostics, x.IsEarly) :
    ∀ x ∈ d'.diagnostics, x.IsEarly := by
  obtain ⟨lane, e, books⟩ := h.exists_books
  rw [books.diagnostics]
  exact fun x hx => (List.mem_append.1 hx).elim (hd x) (duplicateWarning_isEarly d lane e x)

end Draft

theorem Outline.diagnostics_isEarly_finished (defaultLane : String) (lines : List Line) :
    ∀ x ∈ (finished defaultLane lines).diagnostics, x.IsEarly := by
  refine finished_invariant (P := fun d => ∀ x ∈ d.diagnostics, x.IsEarly) defaultLane
    (fun _ _ h hd => h.diagnostics ▸ hd) ?_
  exact draft_invariant (P := fun d => ∀ x ∈ d.diagnostics, x.IsEarly) defaultLane (by simp)
    (fun _ _ _ _ h => h.diagnostics_isEarly) fun _ _ _ _ h => h.diagnostics_isEarly

/-- Of the warnings that have to wait for the end, an outline has those about messages. -/
theorem Outline.filter_diagnostics {options : ReadOptions} {text : String} {o : Outline}
    (h : ofText options text = .ok o) {kind : DiagnosticKind} (late : kind.isLate = true) :
    o.diagnostics.filter (·.kind = kind) =
      (o.unmatched.map (·.warning)).filter (·.kind = kind) := by
  have filtered {l : List Diagnostic} (early : ∀ x ∈ l, x.IsEarly) :
      l.filter (·.kind = kind) = [] := by
    refine List.filter_eq_nil_iff.2 fun x hx same => ?_
    have other := early x hx
    simp_all [Diagnostic.IsEarly]
  obtain rfl := eq_ofDraft_of_ofText h
  have lines := filtered (diagnostics_isEarly_finished options.defaultLane
    (scan options.maxDepth text).lines)
  rw [finished] at lines
  simp only [ofDraft, List.filter_append, filtered (scan_warnings_isEarly _ _), lines,
    List.nil_append]

theorem Flow.kind_of_mem_diagnostics {outcomes : List Outcome} {x : Diagnostic}
    (h : x ∈ diagnostics outcomes) : x.kind ≠ .unmatchedMessage := by
  obtain ⟨o, -, ho⟩ := List.mem_filterMap.1 h
  cases o <;> simp only [Outcome.warning?, Option.some.injEq, reduceCtorEq] at ho <;> subst ho <;>
    simp [Finding.toDiagnostic, Finding.kind]

/-- Only messages without another side are reported as such. -/
theorem Outline.filter_unmatched {options : ReadOptions} {text : String} {o : Outline}
    (h : ofText options text = .ok o) (outcomes : List Outcome) :
    (o.diagnostics ++ Flow.diagnostics outcomes).filter (·.kind = .unmatchedMessage) =
      o.unmatched.map (·.warning) := by
  have all : (o.unmatched.map (·.warning)).filter (·.kind = .unmatchedMessage) =
      o.unmatched.map (·.warning) := by
    refine List.filter_eq_self.2 fun x hx => ?_
    obtain ⟨m, -, rfl⟩ := List.mem_map.1 hx
    rfl
  have others : (Flow.diagnostics outcomes).filter (·.kind = .unmatchedMessage) = [] :=
    List.filter_eq_nil_iff.2 fun x hx => by simpa using Flow.kind_of_mem_diagnostics hx
  rw [List.filter_append, filter_diagnostics h rfl, all, others, List.append_nil]

/-! ## What is left over -/

/-- The elements of a message that are left over when its two sides are paired in their order. -/
def WaitingMessage.leftOver (label : String) (messages : List WaitingMessage) :
    List WaitingMessage :=
  let sends := ofSide label .send messages
  let receives := ofSide label .receive messages
  if receives.length ≤ sends.length then sends.drop receives.length
  else receives.drop sends.length

theorem WaitingMessage.filter_label {label : String} {side : Side} {messages : List WaitingMessage}
    (h : ofSide label side.other messages = []) :
    messages.filter (·.label = label) = ofSide label side messages := by
  refine List.filter_congr fun m hm => ?_
  have away := List.filter_eq_nil_iff.1 h m hm
  by_cases same : m.label = label
  · have own : m.side = side := by
      refine (m.side.eq_or_eq_other side).resolve_right ?_
      simpa [same] using away
    simp [same, own]
  · simp [same]

/-- Lines that grow tell messages apart. -/
theorem WaitingMessage.filter_line {messages : List WaitingMessage}
    (h : messages.Pairwise fun x y => x.line < y.line) {m : WaitingMessage} (hm : m ∈ messages) :
    messages.filter (·.line = m.line) = [m] := by
  obtain ⟨before, after, rfl⟩ := List.append_of_mem hm
  obtain ⟨-, behind, apart⟩ := List.pairwise_append.1 h
  have earlier : before.filter (·.line = m.line) = [] := by
    refine List.filter_eq_nil_iff.2 fun x hx => ?_
    simpa using Nat.ne_of_lt (apart x hx m (by simp))
  have later : after.filter (·.line = m.line) = [] := by
    refine List.filter_eq_nil_iff.2 fun x hx => ?_
    simpa using (Nat.ne_of_lt (List.rel_of_pairwise_cons behind hx)).symm
  simp [earlier, later]

/-- Of each message only one side waits. -/
theorem Draft.Paired.filter_waiting {d : Draft} (hd : d.Paired) (label : String) :
    d.waiting.filter (·.label = label) = WaitingMessage.leftOver label d.messages := by
  simp only [WaitingMessage.leftOver]
  split
  · next short =>
    have receives : ofSide label Side.send.other d.waiting = [] := by
      rw [hd.waiting]
      exact List.drop_eq_nil_of_le short
    rw [WaitingMessage.filter_label receives, hd.waiting]
    rfl
  · next long =>
    have sends : ofSide label Side.receive.other d.waiting = [] := by
      rw [hd.waiting]
      exact List.drop_eq_nil_of_le (Nat.le_of_not_le long)
    rw [WaitingMessage.filter_label sends, hd.waiting]
    rfl

/-- The elements of a document that are sides of messages, in the order of their declaration. -/
def Document.messages (doc : Document) : List WaitingMessage :=
  doc.elements.filterMap Element.message?

/-- An outline shows a draft whose messages are paired and whose lines grow. -/
theorem Outline.exists_paired_of_ofText {options : ReadOptions} {text : String} {o : Outline}
    (h : ofText options text = .ok o) : ∃ d : Draft, d.Registered ∧ d.Paired ∧
      (d.elements.Pairwise fun x y => x.line < y.line) ∧ o.document.messages = d.messages ∧
      o.events = d.events ∧ o.unmatched = d.waiting := by
  have growing := scan_numbers_pairwise options.maxDepth text
  obtain rfl := eq_ofDraft_of_ofText h
  generalize (scan options.maxDepth text).lines = ls at *
  have registered := registered_finished options.defaultLane ls
  have lines := growing.sublist (lines_sublist options.defaultLane ls)
  rw [← finished_elements, List.pairwise_map] at lines
  refine ⟨_, registered, paired_finished options.defaultLane ls, lines, ?_, rfl, rfl⟩
  exact congrArg (List.filterMap Element.message?) (Draft.document_elements registered)

/-- Each message of an outline: the elements on its two sides are paired in their order, and a pair
is one connection with the label of the message. The elements that are left over are unmatched, and
a line is reported for each of them. Whatever order the messages are gone through in, what is left
over is listed in the order of declaration. -/
structure ProcessGraph.JoinsMessages (g : ProcessGraph) (o : Outline) : Prop where
  events : ∀ label, o.events.filterMap (Event.pair? label) = pairs label o.document.messages
  connections : ∀ label, ∀ p ∈ pairs label o.document.messages, ∃ c,
    g.connections.filter (fun c => c.kind = .messageFlow && c.source = p.1 && c.target = p.2) =
      [c] ∧ c.label = some label
  unmatched : ∀ label, o.unmatched.filter (·.label = label) =
    WaitingMessage.leftOver label o.document.messages
  warnings : g.diagnostics.filter (·.kind = .unmatchedMessage) = o.unmatched.map (·.warning)
  reported : ∀ m ∈ o.unmatched, g.diagnostics.filter
    (fun x => x.line = m.line && x.kind = .unmatchedMessage) = [m.warning]
  ordered : o.unmatched.Pairwise fun x y => x.order < y.order
  drained : ∀ labels : List String, labels.Nodup → (∀ m ∈ o.unmatched, m.label ∈ labels) →
    StableSort.byKey (·.order)
      (labels.flatMap fun label => WaitingMessage.leftOver label o.document.messages) = o.unmatched

/-- The messages of every text that is read. -/
theorem ProcessGraph.ofText_joinsMessages (options : ReadOptions) (text : String) (o : Outline)
    (h : Outline.ofText options text = .ok o) :
    ∃ g, ofText options text = .ok g ∧ g.JoinsMessages o := by
  refine ⟨ofOutline o, by rw [ofText, h]; rfl, ?_⟩
  have filtered := Outline.filter_unmatched h
  obtain ⟨d, registered, paired, lines, messages, events, waiting⟩ :=
    Outline.exists_paired_of_ofText h
  have unmatched (label : String) : o.unmatched.filter (·.label = label) =
      WaitingMessage.leftOver label o.document.messages := by
    rw [waiting, messages, paired.filter_waiting]
  have ordered : o.unmatched.Pairwise fun x y => x.order < y.order := by
    rw [waiting]
    exact (Draft.pairwise_messages (fun _ _ hm => (Element.eq_of_message? hm).2.1)
      (Draft.pairwise_order registered)).sublist paired.sublist
  have apart : o.unmatched.Pairwise fun x y => x.line < y.line := by
    rw [waiting]
    exact (Draft.pairwise_messages (fun _ _ hm => (Element.eq_of_message? hm).2.2)
      lines).sublist paired.sublist
  -- The warnings about messages are in the order of their lines, so sorting leaves them alone.
  have warnings : (ofOutline o).diagnostics.filter (·.kind = .unmatchedMessage) =
      o.unmatched.map (·.warning) := by
    rw [← filtered]
    refine StableSort.filter_byKey ?_
    rw [filtered]
    exact List.pairwise_map.2 apart
  refine ⟨fun label => ?_, ?_, unmatched, warnings, fun m hm => ?_, ordered, ?_⟩
  · rw [events, messages, paired.events]
  · rintro label ⟨sender, receiver⟩ pair
    rw [messages, ← paired.events, ← events, Event.mem_pairs_iff] at pair
    refine connection_of_paired pair fun label' pair' => ?_
    rw [events] at pair pair'
    exact paired.label_eq registered pair' pair
  · rw [← List.filter_filter, warnings, List.filter_map]
    exact congrArg (List.map (·.warning)) (WaitingMessage.filter_line apart hm)
  · intro labels nodup covered
    have perm := flatMap_filter_perm WaitingMessage.label nodup covered
    simp only [unmatched] at perm
    exact StableSort.byKey_eq_of_perm perm ordered

/-- A message is sent three times and received once, with another message in between. -/
theorem ProcessGraph.ofText_joinsMessages_interleaved :
    ∃ o, Outline.ofText {} "send: m\nsend: m\n@B\nreceive: n\nreceive: m\nsend: m" = .ok o ∧
      o.unmatched.map (fun m => (m.line, m.label)) = [(2, "m"), (4, "n"), (6, "m")] ∧
      ∃ g, ofText {} "send: m\nsend: m\n@B\nreceive: n\nreceive: m\nsend: m" = .ok g ∧
        g.JoinsMessages o := by
  have read : Outline.ofText {}
    "send: m\nsend: m\n@B\nreceive: n\nreceive: m\nsend: m" = .ok _ := rfl
  exact ⟨_, read, by decide +kernel, ofText_joinsMessages _ _ _ read⟩

end Swimlane
