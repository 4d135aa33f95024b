import Mathlib.Data.List.Nodup
import Mathlib.Order.Monotone.Basic
import Swimlane.Proofs.Prefix

/-!
# Numbered connections

The connections of a document are the edges that a log draws, then those of its data objects, then
those of references, each edge at the place where it comes up first, and numbered in this order. No
text has to lead to the document, the log and the references: ids may repeat, positions may be
equal, and events may name elements and lanes that are not there.

## Main definitions

* `Edge.firsts`, `Edge.newTo`: the first edge of each key, and the edges with new keys;
* `Flow.associated`, `Flow.referred`: the edges of data objects and of references;
* `Flow.Enumerates`: connections that number the edges of a document.

## Main statements

* `Outcome.edges_distinct`, `Edge.firsts_append`: the edges that count;
* `Flow.logged_take_succ`: an event adds at most one edge to those of the log before it;
* `Flow.connections_enumerate`: all this holds for the connections of every document.
-/

namespace Swimlane

/-! ## First edges -/

namespace Edge

/-- Of several edges with the same key only the first. -/
def firsts (edges : List Edge) : List Edge := edges.eraseDupsBy fun a b => a.key = b.key

/-- The edges with keys that none of the edges before them has. -/
def newTo (before edges : List Edge) : List Edge := edges.filter (·.key ∉ before.map key)

theorem firsts_cons (e : Edge) (es : List Edge) :
    firsts (e :: es) = e :: firsts (es.filter (·.key ≠ e.key)) := by
  simp [firsts, List.eraseDupsBy_cons]

/-- The first edges of two lists: those of the first one, and of the second one those that the first
one does not have. -/
theorem firsts_append (as bs : List Edge) :
    firsts (as ++ bs) = firsts as ++ firsts (newTo as bs) := by
  match as with
  | [] => simp [newTo, firsts, List.eraseDupsBy, List.eraseDupsBy.loop]
  | a :: as =>
    have new : newTo (as.filter (·.key ≠ a.key)) (bs.filter (·.key ≠ a.key)) =
        newTo (a :: as) bs := by
      rw [newTo, newTo, List.filter_filter]
      apply List.filter_congr
      intro b _
      rw [Bool.eq_iff_iff]
      grind
    rw [List.cons_append, firsts_cons, firsts_cons, List.filter_append, firsts_append, new,
      List.cons_append]
  -- The edges behind the first one are filtered before they are gone through.
  termination_by as.length
  decreasing_by exact Nat.lt_succ_of_le (List.length_filter_le _ _)

theorem firsts_sublist (es : List Edge) : (firsts es).Sublist es := by
  match es with
  | [] => exact List.Sublist.refl _
  | e :: es =>
    rw [firsts_cons]
    exact .cons_cons e ((firsts_sublist _).trans List.filter_sublist)
  termination_by es.length
  decreasing_by exact Nat.lt_succ_of_le (List.length_filter_le _ _)

/-- The number of an edge can be told from the id of its connection. -/
theorem position_of_connection_id {i j : Nat} {e e' : Edge}
    (h : (connection i e).id = (connection j e').id) : i = j := by
  have stems : e.kind = e'.kind := by
    have first := congrArg (fun id : String => id.toList.head?) h
    cases ek : e.kind <;> cases ek' : e'.kind <;>
      simp [connection, ek, ek', ConnectionKind.idStem] at first ⊢
  have numbers := Identifier.numbered_injective e.kind.idStem
    (show Identifier.numbered e.kind.idStem (i + 1) = Identifier.numbered e.kind.idStem (j + 1) by
      simpa [Identifier.numbered, connection, stems] using h)
  omega

end Edge

open Edge (firsts newTo)

/-- The edges that count: the first ones among those that were not there before. -/
theorem Outcome.edges_distinct (seen : List (ConnectionKind × String × String))
    (outcomes : List Outcome) :
    (distinct seen outcomes).filterMap edge? =
      firsts ((outcomes.filterMap edge?).filter (·.key ∉ seen)) := by
  fun_induction distinct seen outcomes with
  | case1 => rfl
  | case2 seen e rest known ih => simp [edge?, known, ih]
  | case3 seen e rest new ih =>
    have later : ((rest.filterMap edge?).filter (·.key ∉ seen)).filter (·.key ≠ e.key) =
        (rest.filterMap edge?).filter (·.key ∉ e.key :: seen) := by
      rw [List.filter_filter]
      apply List.filter_congr
      grind
    have kept : ((edge e :: rest).filterMap edge?).filter (·.key ∉ seen) =
        e :: (rest.filterMap edge?).filter (·.key ∉ seen) := by
      simp [edge?, new]
    rw [kept, Edge.firsts_cons, later, ← ih]
    rfl
  | case4 seen o rest other ih =>
    cases o with
    | edge e => exact absurd rfl (other e)
    | looseData | looseReference => exact ih

/-! ## Connections -/

/-- The edge of a connection. -/
def Connection.edge (c : Connection) : Edge := ⟨c.kind, c.source, c.target, c.label⟩

namespace Flow

variable (doc : Document) (events : List Event) (references : List Reference)

/-- The edges of data objects, by the positions of the data objects. -/
def associated : List Edge := (doc.elements.filterMap (Outcome.ofData? doc)).filterMap Outcome.edge?

/-- The edges of references. -/
def referred : List Edge := (references.map (Outcome.ofReference doc)).filterMap Outcome.edge?

/-- All edges as they come up, also those that were there before. -/
def emitted : List Edge := Threads.run doc {} events ++ associated doc ++ referred doc references

theorem filterMap_edge?_emitted :
    ((Threads.run doc {} events).map Outcome.edge ++ doc.elements.filterMap (Outcome.ofData? doc) ++
        references.map (Outcome.ofReference doc)).filterMap Outcome.edge? =
      emitted doc events references := by
  have drawn : ((Threads.run doc {} events).map Outcome.edge).filterMap Outcome.edge? =
      Threads.run doc {} events := by
    simp [List.filterMap_map, Function.comp_def, Outcome.edge?]
  rw [List.filterMap_append, List.filterMap_append, drawn]
  rfl

theorem edges_outcomes :
    (outcomes doc events references).filterMap Outcome.edge? =
      firsts (emitted doc events references) := by
  rw [outcomes, Outcome.edges_distinct, filterMap_edge?_emitted]
  simp

theorem logged_eq : logged doc events = firsts (Threads.run doc {} events) := by
  rw [logged, Outcome.edges_distinct]
  simp [List.filterMap_map, Function.comp_def, Outcome.edge?]

theorem map_edge_connections :
    (connections (outcomes doc events references)).map (·.edge) =
      firsts (emitted doc events references) := by
  rw [← edges_outcomes, connections]
  apply List.ext_getElem?
  intro i
  simp [List.getElem?_mapIdx, Function.comp_def, Edge.connection, Connection.edge]

/-- The connections are what first came up, and no two of them have the same key. -/
theorem filter_key_connections (key : ConnectionKind × String × String) :
    ((connections (outcomes doc events references)).map (·.edge)).filter (·.key = key) =
      ((emitted doc events references).find? (·.key = key)).toList := by
  rw [map_edge_connections, ← edges_outcomes, outcomes, Outcome.filter_key_distinct,
    filterMap_edge?_emitted]
  simp

/-- The one connection of a key is the edge that came up first. -/
theorem exists_connection {key : ConnectionKind × String × String} {e : Edge}
    (found : (emitted doc events references).find? (·.key = key) = some e) :
    ∃ c, (connections (outcomes doc events references)).filter
      (fun c => c.kind = key.1 && c.source = key.2.1 && c.target = key.2.2) = [c] ∧ c.edge = e := by
  have edges := filter_key_connections doc events references key
  rw [found, List.filter_map, Option.toList_some] at edges
  obtain ⟨c, only, same⟩ := List.map_eq_singleton_iff.1 edges
  refine ⟨c, only ▸ List.filter_congr fun x _ => ?_, same⟩
  simp [Connection.edge, Edge.key, Prod.ext_iff, Bool.and_assoc]

theorem kind_of_mem_run {t : Threads} {e : Edge} (h : e ∈ Threads.run doc t events) :
    e.kind ≠ .dataAssociation := by
  obtain ⟨before, ev, -, drawn⟩ := Threads.exists_step_of_mem_run h
  cases Threads.draws_step drawn <;> simp

theorem kind_of_mem_associated {e : Edge} (h : e ∈ associated doc) :
    e.kind = .dataAssociation := by
  obtain ⟨o, ho, edge⟩ := List.mem_filterMap.1 h
  obtain ⟨x, -, data⟩ := List.mem_filterMap.1 ho
  unfold Outcome.ofData? at data
  grind [Outcome.edge?]

/-- No event draws an association, so those of the data objects are all new. -/
theorem newTo_run_associated :
    newTo (Threads.run doc {} events) (associated doc) = associated doc := by
  apply List.filter_eq_self.2
  intro e he
  have apart : e.key ∉ (Threads.run doc {} events).map (·.key) := by
    intro known
    obtain ⟨x, hx, same⟩ := List.mem_map.1 known
    have kinds : x.kind = e.kind := congrArg Prod.fst same
    exact kind_of_mem_run doc events hx (kinds.trans (kind_of_mem_associated doc he))
  simpa using apart

/-- An event adds at most one edge behind those of the events before it. -/
theorem logged_take_succ (n : Nat) :
    ∃ more, logged doc (events.take (n + 1)) = logged doc (events.take n) ++ more ∧
      more.length ≤ 1 := by
  rw [logged_eq, logged_eq]
  cases next : events[n]? with
  | none =>
    have last : events.take (n + 1) = events.take n := by simp [List.take_add_one, next]
    exact ⟨[], by simp [last], by simp⟩
  | some ev =>
    have taken : events.take (n + 1) = events.take n ++ [ev] := by simp [List.take_add_one, next]
    rw [taken, Threads.run_append, Edge.firsts_append]
    refine ⟨_, rfl, ?_⟩
    rw [Threads.run, Threads.run, List.append_nil]
    generalize (Threads.step doc _ ev).2 = drawn
    calc (firsts (newTo _ drawn.toList)).length
      _ ≤ (newTo _ drawn.toList).length := (Edge.firsts_sublist _).length_le
      _ ≤ drawn.toList.length := List.length_filter_le _ _
      _ ≤ 1 := Option.length_toList_le

/-- Without references, the connections are the edges of the log and of the data objects. -/
theorem length_connections_nil :
    (connections (outcomes doc events [])).length =
      (logged doc events).length + (firsts (associated doc)).length := by
  have edges := congrArg List.length (map_edge_connections doc events [])
  rw [emitted, referred, List.map_nil, List.filterMap_nil, List.append_nil, Edge.firsts_append,
    newTo_run_associated, List.length_map, List.length_append, ← logged_eq] at edges
  exact edges

/-- Connections number the edges of a document, a log and references: no two have the same kind and
the same ends, each is as it came up first, also with its label, and its id is its number behind the
stem of its kind. The edges of the log come first, those of data objects next and those of
references last. One more event keeps the edges of a log and adds at most one, so that there are
never fewer connections behind more events. -/
structure Enumerates (cs : List Connection) : Prop where
  keys_nodup : (cs.map (·.edge.key)).Nodup
  ids : ∀ i c, cs[i]? = some c → c.id = c.kind.idStem ++ "_" ++ toString (i + 1)
  ids_nodup : (cs.map (·.id)).Nodup
  first : ∀ c ∈ cs, (emitted doc events references).find? (·.key = c.edge.key) = some c.edge
  parts : cs.map (·.edge) = firsts (Threads.run doc {} events) ++
    firsts (newTo (Threads.run doc {} events) (associated doc)) ++
      firsts (newTo (Threads.run doc {} events ++ associated doc) (referred doc references))
  grows : ∀ n, logged doc (events.take n) <+: logged doc (events.take (n + 1)) ∧
    (logged doc (events.take (n + 1))).length ≤ (logged doc (events.take n)).length + 1
  monotone : Monotone fun n => (connections (outcomes doc (events.take n) [])).length

/-- The connections of every document, log and list of references number its edges. -/
theorem connections_enumerate :
    Enumerates doc events references (connections (outcomes doc events references)) := by
  have ids (i : Nat) (c : Connection)
      (h : (connections (outcomes doc events references))[i]? = some c) :
      ∃ e, c = Edge.connection i e := by
    rw [connections, List.getElem?_mapIdx] at h
    obtain ⟨e, -, rfl⟩ := Option.map_eq_some_iff.1 h
    exact ⟨e, rfl⟩
  have grows (n : Nat) : logged doc (events.take n) <+: logged doc (events.take (n + 1)) ∧
      (logged doc (events.take (n + 1))).length ≤ (logged doc (events.take n)).length + 1 := by
    obtain ⟨more, next, short⟩ := logged_take_succ doc events n
    rw [next, List.length_append]
    exact ⟨List.prefix_append _ _, by omega⟩
  have parts := map_edge_connections doc events references
  have filtered := filter_key_connections doc events references
  generalize connections (outcomes doc events references) = cs at *
  refine
    { keys_nodup := ?_
      ids := ?_
      ids_nodup := ?_
      first := ?_
      parts := ?_
      grows := grows
      monotone := ?_ }
  · rw [List.nodup_iff_count_le_one]
    intro key
    calc (cs.map (·.edge.key)).count key
      _ = ((cs.map (·.edge)).filter (·.key = key)).length := by
        rw [List.count_eq_countP, List.countP_map, ← List.countP_eq_length_filter, List.countP_map]
        exact List.countP_congr fun c _ => by simp
      _ = ((emitted doc events references).find? (·.key = key)).toList.length := by rw [filtered]
      _ ≤ 1 := Option.length_toList_le
  · intro i c h
    obtain ⟨e, rfl⟩ := ids i c h
    rfl
  · rw [List.nodup_iff_getElem?_ne_getElem?]
    intro i j lt bound same
    rw [List.getElem?_map, List.getElem?_map] at same
    rw [List.length_map] at bound
    obtain ⟨e, he⟩ := ids i cs[i] (List.getElem?_eq_getElem (by omega))
    obtain ⟨e', he'⟩ := ids j cs[j] (List.getElem?_eq_getElem bound)
    have same : (Edge.connection i e).id = (Edge.connection j e').id := by
      rw [← he, ← he']
      simpa [List.getElem?_eq_getElem, bound, lt.trans bound] using same
    have := Edge.position_of_connection_id same
    omega
  · intro c hc
    have mem : c.edge ∈ (cs.map (·.edge)).filter (·.key = c.edge.key) := by
      simpa using ⟨c, hc, rfl⟩
    rw [filtered] at mem
    exact Option.mem_toList.1 mem
  · rw [parts, emitted, Edge.firsts_append, Edge.firsts_append]
  · apply monotone_nat_of_le_succ
    intro n
    have longer := (grows n).1.length_le
    rw [length_connections_nil, length_connections_nil]
    omega

end Flow

end Swimlane
