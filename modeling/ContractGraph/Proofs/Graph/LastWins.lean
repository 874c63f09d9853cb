/-
The stored connections as a map from inputs: which connection an input has after a session of edits.

A connection into an input is meant to stay until it is released: by another connection into that input, by a
disconnect of its id, or by the removal of a node at one of its ends. Connections are stored under their ids, and an id
does not tell where one of its parts ends: where a node id holds ".value->", two connections into different inputs can
have one id. Storing the second then overwrites the first.

Results:
- `mem_wires_step_iff`: an edit makes a connection, releases it or overwrites it, and does nothing else to it;
- `wireInto?_run_iff`: an input has the connection that was last made into it, unless that was released or overwritten
  since; connecting and disconnecting spare every connection with another id into another input;
- `shared_id_overwrites`: a session that releases nothing and loses a connection.
-/
import ContractGraph.Proofs.Graph.Layout
import ContractGraph.Proofs.Graph.Wiring

namespace ContractGraph.Edit

/-! ## What an edit does to a connection -/

/-- the edit is not refused -/
def Accepted (g : Graph) (e : Edit) : Prop := (e.apply g).isOk = true

instance (g : Graph) (e : Edit) : Decidable (Accepted g e) := inferInstanceAs (Decidable (_ = true))

/-- the edit takes a connection out of its input: it puts another one there, disconnects it by its id, or removes a node
at one of its ends -/
def Releases (g : Graph) (c : Connection) : Edit → Prop
  | connect d => Accepted g (connect d) ∧ d.into c.target c.input = true
  | disconnect key => key = c.id
  | removeNode id => c.touches id = true
  | _ => False

/-- the edit stores a connection into another input under the same id -/
def Overwrites (g : Graph) (c : Connection) : Edit → Prop
  | connect d => Accepted g (connect d) ∧ d.into c.target c.input = false ∧ d.id = c.id
  | _ => False

/-- a session makes the connection and does nothing of the kind `Ends` to it later; each edit acts on the graph that the
edits before it have left -/
def Makes (Ends : Graph → Connection → Edit → Prop) (es : List Edit) (c : Connection) : Prop :=
  ∃ before after, es = before ++ connect c :: after ∧ Accepted (run ∅ before) (connect c) ∧
    ∀ mid e rest, after = mid ++ e :: rest → ¬ Ends (run ∅ (before ++ connect c :: mid)) c e

theorem run_snoc (g : Graph) (es : List Edit) (e : Edit) : run g (es ++ [e]) = step (run g es) e := by
  simp [run, List.foldl_append]

theorem not_makes_nil (Ends : Graph → Connection → Edit → Prop) (c : Connection) : ¬ Makes Ends [] c := by
  rintro ⟨before, after, h, -⟩
  simp at h

/-- the last edit of a session makes the connection, or keeps one that was made before -/
theorem makes_snoc_iff {Ends : Graph → Connection → Edit → Prop} {es : List Edit} {e : Edit} {c : Connection} :
    Makes Ends (es ++ [e]) c ↔ e = connect c ∧ Accepted (run ∅ es) e ∨ Makes Ends es c ∧ ¬ Ends (run ∅ es) c e := by
  constructor
  · rintro ⟨before, after, h, ha, hk⟩
    rcases List.eq_nil_or_concat after with rfl | ⟨mid, e', rfl⟩
    · obtain ⟨rfl, he⟩ := List.append_inj' h rfl
      obtain rfl : e = connect c := by simpa using he
      exact Or.inl ⟨rfl, ha⟩
    · have h' : es ++ [e] = (before ++ connect c :: mid) ++ [e'] := by rw [h]; simp
      obtain ⟨rfl, he⟩ := List.append_inj' h' rfl
      obtain rfl : e = e' := by simpa using he
      refine Or.inr ⟨⟨before, mid, rfl, ha, fun m x r hm => hk m x (r ++ [e]) ?_⟩, hk mid e [] ?_⟩
      · simp [hm]
      · simp
  · rintro (⟨rfl, ha⟩ | ⟨⟨before, after, rfl, ha, hk⟩, he⟩)
    · exact ⟨es, [], rfl, ha, fun mid e rest h => by simp at h⟩
    · refine ⟨before, after ++ [e], by simp, ha, fun mid x rest h => ?_⟩
      rcases List.eq_nil_or_concat rest with rfl | ⟨rest', y, rfl⟩
      · obtain ⟨rfl, hx⟩ := List.append_inj' h rfl
        obtain rfl : e = x := by simpa using hx
        exact he
      · have h' : after ++ [e] = (mid ++ x :: rest') ++ [y] := by rw [h]; simp
        exact hk mid x rest' (List.append_inj' h' rfl).1

theorem step_of_ok {g g' : Graph} {e : Edit} (h : e.apply g = .ok g') : step g e = g' := by rw [step, h]

theorem step_of_error {g : Graph} {e : Edit} {f : EditFault} (h : e.apply g = .error f) : step g e = g := by
  rw [step, h]

/-- a connection goes with the nodes at its ends and with nothing else that is removed -/
theorem mem_wires_step_removeNode {g : Graph} (h : g.Inv) {id : String} {c : Connection} :
    c ∈ (step g (removeNode id)).wires ↔ c ∈ g.wires ∧ c.touches id = false := by
  cases he : g.removeNode id with
  | ok g' => rw [step_of_ok (e := removeNode id) he, Graph.mem_wires_removeNode he]
  | error f =>
    rw [step_of_error (e := removeNode id) he]
    refine ⟨fun hc => ⟨hc, ?_⟩, And.left⟩
    have hnone := Graph.removeNode_error he
    obtain ⟨o, i, ho, hi, -⟩ := h.joins c hc
    obtain ⟨s, hs, -⟩ := g.outputPort?_eq_some_iff.1 ho
    obtain ⟨t, ht, -⟩ := g.inputPort?_eq_some_iff.1 hi
    rw [← Bool.not_eq_true, c.touches_iff]
    rintro (rfl | rfl)
    · rw [hnone] at hs; cases hs
    · rw [hnone] at ht; cases ht

theorem mem_wires_step_disconnect {g : Graph} (h : g.Inv) {key : String} {c : Connection} :
    c ∈ (step g (disconnect key)).wires ↔ c ∈ g.wires ∧ key ≠ c.id := by
  cases he : g.disconnect key with
  | ok g' => rw [step_of_ok (e := disconnect key) he, h.mem_wires_disconnect he, ne_comm]
  | error f =>
    rw [step_of_error (e := disconnect key) he]
    refine ⟨fun hc => ⟨hc, ?_⟩, And.left⟩
    rintro rfl
    have hk : g.connections.contains c.id = true :=
      g.connections.contains_eq_true_iff.2 ⟨c, h.mem_entries_iff.2 ⟨hc, rfl⟩⟩
    rw [Graph.disconnect_error he] at hk
    cases hk

theorem mem_wires_step_connect {g : Graph} (h : g.Inv) {c d : Connection} :
    c ∈ (step g (connect d)).wires ↔ d = c ∧ Accepted g (connect d) ∨
      c ∈ g.wires ∧ ¬ (Releases g c (connect d) ∨ Overwrites g c (connect d)) := by
  cases he : g.connect d with
  | error f =>
    have hna : ¬ Accepted g (connect d) := by simp [Accepted, Edit.apply, he, Except.isOk, Except.toBool]
    rw [step_of_error (e := connect d) he]
    simp [Releases, Overwrites, hna]
  | ok g' =>
    have ha : Accepted g (connect d) := by simp [Accepted, Edit.apply, he, Except.isOk, Except.toBool]
    have hsame : c.into d.target d.input = d.into c.target c.input := by
      rw [Bool.eq_iff_iff, c.into_iff, d.into_iff]
      exact ⟨fun h => ⟨h.1.symm, h.2.symm⟩, fun h => ⟨h.1.symm, h.2.symm⟩⟩
    rw [step_of_ok (e := connect d) he, h.mem_wires_connect he, hsame]
    simp only [Releases, Overwrites, ha, true_and, and_true]
    cases d.into c.target c.input <;> simp [eq_comm]

/-- **What one edit does to a connection.** It is there after an edit just when the edit makes it, or it was there
before and the edit neither releases nor overwrites it. -/
theorem mem_wires_step_iff {g : Graph} (h : g.Inv) (e : Edit) (c : Connection) :
    c ∈ (step g e).wires ↔
      e = connect c ∧ Accepted g e ∨ c ∈ g.wires ∧ ¬ (Releases g c e ∨ Overwrites g c e) := by
  cases e with
  | addNode n =>
    have hw : (step g (addNode n)).wires = g.wires := by
      cases he : g.addNode n with
      | ok g' => rw [step_of_ok (e := addNode n) he, Graph.wires, (Graph.addNode_ok he).2.1, Graph.wires]
      | error f => rw [step_of_error (e := addNode n) he]
    simp [hw, Releases, Overwrites]
  | setControl id key value =>
    have hw : (step g (setControl id key value)).wires = g.wires := by
      cases he : g.setControl id key value with
      | ok g' => rw [step_of_ok (e := setControl id key value) he, Graph.wires, (Graph.setControl_ok he).1, Graph.wires]
      | error f => rw [step_of_error (e := setControl id key value) he]
    simp [hw, Releases, Overwrites]
  | removeNode id =>
    simp only [mem_wires_step_removeNode h, Releases, Overwrites, or_false, Bool.not_eq_true, reduceCtorEq, false_and,
      false_or]
  | disconnect key => simp [mem_wires_step_disconnect h, Releases, Overwrites]
  | connect d => rw [mem_wires_step_connect h, connect.injEq]

/-! ## Whole sessions -/

/-- a connection is there after a session just when the session makes it and does nothing to it later -/
theorem mem_wires_run_iff (es : List Edit) (c : Connection) :
    c ∈ (run ∅ es).wires ↔ Makes (fun g d e => Releases g d e ∨ Overwrites g d e) es c := by
  induction es using List.reverseRecOn with
  | nil =>
    refine ⟨fun h => ?_, fun h => absurd h (not_makes_nil _ c)⟩
    exact absurd h (List.not_mem_nil (a := c))
  | append_singleton es e ih =>
    rw [run_snoc, mem_wires_step_iff (Graph.run_inv ∅ es Graph.inv_empty), makes_snoc_iff, ih]

/-- without another connection of its id in the session, nothing overwrites a connection -/
theorem makes_iff_of_own_id {es : List Edit} {c : Connection} (h : ∀ d, connect d ∈ es → d.id = c.id → d = c) :
    Makes (fun g d e => Releases g d e ∨ Overwrites g d e) es c ↔ Makes Releases es c := by
  constructor
  · rintro ⟨before, after, he, ha, hk⟩
    exact ⟨before, after, he, ha, fun mid e rest hm hr => hk mid e rest hm (Or.inl hr)⟩
  · rintro ⟨before, after, rfl, ha, hk⟩
    refine ⟨before, after, rfl, ha, fun mid e rest hm => ?_⟩
    rintro (hr | ho)
    · exact hk mid e rest hm hr
    · cases e with
      | connect d =>
        obtain ⟨-, hi, hid⟩ := ho
        obtain rfl : d = c := h d (by simp [hm]) hid
        simp [Connection.into] at hi
      | _ => exact ho

/-- **An input has the connection last made into it, unless it was released or overwritten since.** For every session of
edits from the empty graph and every input; what is released or overwritten leaves nothing there. Where no other
connection of the session has the id, releasing is all that counts. Connecting another input spares a connection just
when the ids differ, and so does disconnecting. -/
theorem wireInto?_run_iff (es : List Edit) (node port : String) (c : Connection) :
    ((run ∅ es).wireInto? node port = some c ↔
      c.into node port = true ∧ Makes (fun g d e => Releases g d e ∨ Overwrites g d e) es c) ∧
    ((∀ d, connect d ∈ es → d.id = c.id → d = c) →
      ((run ∅ es).wireInto? node port = some c ↔ c.into node port = true ∧ Makes Releases es c)) ∧
    (c ∈ (run ∅ es).wires → ∀ d, Accepted (run ∅ es) (connect d) → d.into c.target c.input = false →
      (c ∈ (run ∅ (es ++ [connect d])).wires ↔ d.id ≠ c.id)) ∧
    (c ∈ (run ∅ es).wires → ∀ key, c ∈ (run ∅ (es ++ [disconnect key])).wires ↔ key ≠ c.id) := by
  have h := Graph.run_inv ∅ es Graph.inv_empty
  have hmain : (run ∅ es).wireInto? node port = some c ↔
      c.into node port = true ∧ Makes (fun g d e => Releases g d e ∨ Overwrites g d e) es c := by
    rw [h.wired.wireInto?_eq_some_iff, mem_wires_run_iff, c.into_iff, and_comm]
  refine ⟨hmain, fun hid => ?_, fun hc d ha hi => ?_, fun hc key => ?_⟩
  · rw [hmain, makes_iff_of_own_id hid]
  · rw [run_snoc, mem_wires_step_connect h]
    have hne : d ≠ c := by
      rintro rfl
      simp [Connection.into] at hi
    simp [hne, hc, ha, hi, Releases, Overwrites]
  · rw [run_snoc, mem_wires_step_disconnect h]
    simp [hc]

/-- two literals and a comparison; the second literal takes the place of the first -/
def replacing : List Edit :=
  place "literal-value" "one" [] ++ place "literal-value" "two" [] ++ place "comparison" "test" [] ++
    [connect ⟨"one", "value", "test", "left"⟩, connect ⟨"two", "value", "test", "left"⟩]

theorem wireInto?_replacing :
    (∀ d, connect d ∈ replacing → d.id = (⟨"two", "value", "test", "left"⟩ : Connection).id →
      d = ⟨"two", "value", "test", "left"⟩) ∧
    (run ∅ replacing).wireInto? "test" "left" = some ⟨"two", "value", "test", "left"⟩ ∧
    Makes Releases replacing ⟨"two", "value", "test", "left"⟩ := by
  have hid : ∀ d, connect d ∈ replacing → d.id = (⟨"two", "value", "test", "left"⟩ : Connection).id →
      d = ⟨"two", "value", "test", "left"⟩ := by
    intro d hd
    have : d = ⟨"one", "value", "test", "left"⟩ ∨ d = ⟨"two", "value", "test", "left"⟩ := by
      simpa [replacing] using hd
    rcases this with rfl | rfl <;> decide
  have hw : (run ∅ replacing).wireInto? "test" "left" = some ⟨"two", "value", "test", "left"⟩ := by decide
  exact ⟨hid, hw, (((wireInto?_run_iff replacing "test" "left" _).2.1 hid).1 hw).2⟩

/-! ## Two connections with one id -/

/-- nodes whose ids make two connections into different inputs read alike -/
def sharedIdNodes : List Edit :=
  place "literal-value" "a" [] ++ place "comparison" "b.value->c" [] ++ place "literal-value" "a.value->b" [] ++
    place "comparison" "c" []

/-- **A connection can be lost without being released.** The second connection feeds another input and has the id of the
first. -/
theorem shared_id_overwrites :
    Makes Releases (sharedIdNodes ++ [connect ⟨"a", "value", "b.value->c", "left"⟩] ++
      [connect ⟨"a.value->b", "value", "c", "left"⟩]) ⟨"a", "value", "b.value->c", "left"⟩ ∧
    (run ∅ (sharedIdNodes ++ [connect ⟨"a", "value", "b.value->c", "left"⟩] ++
      [connect ⟨"a.value->b", "value", "c", "left"⟩])).wireInto? "b.value->c" "left" = none := by
  refine ⟨makes_snoc_iff.2 (Or.inr ⟨makes_snoc_iff.2 (Or.inl ⟨rfl, by decide⟩), ?_⟩), by decide⟩
  rintro ⟨-, h⟩
  exact absurd h (by decide)

end ContractGraph.Edit
