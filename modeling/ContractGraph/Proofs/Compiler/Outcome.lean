/-
The outcome of a generation, whatever a compiler answers.

A generation fails with one error and nothing else beside the source, or it has an artifact that was read from the
answer. It can fail before anything is sent: the name may be no identifier, and the source may not be written at all,
when its operands need too many calls in one another. An answer is data of any shape, and reading it can fail at every
step; what a step that succeeded has met is said of the answer itself, without mention of how it is read. So an artifact
that counts as compiled has its code from the answer, and the answer reports no error.

Results:
- `search_eq_ok_some`, `found?_eq_ok_some`: where the part of a contract is found;
- `codeOf_eq_ok_some`: where code is found;
- `not_reportsError_of_errors`: an answer without errors among its diagnostics;
- `ofPart_eq_ok`, `missing_eq_ok`, `read_eq_ok`: what an artifact that was read holds;
- `run_cases`: the ways in which a generation ends;
- `run_outcome`: all of it together.
Witnesses:
- `answering_outcome`: a function with a statement is compiled with a warning;
- `chain_unsent`: a long chain of operators is not sent, though its contract has a good name.
-/
import ContractGraph.Compiler.Generation
import ContractGraph.Proofs.Data.Access
import ContractGraph.Proofs.Schema.Usable
import ContractGraph.Proofs.Source.Depth

namespace ContractGraph

/-! ## Steps of the reading -/

namespace Interface

variable {α : Type}

@[simp] theorem need_eq_ok_iff {o : Option α} {a : α} : need o = .ok a ↔ o = some a := by
  cases o <;> simp [need]

@[simp] theorem fit_eq_ok_iff {part : AnswerPart} {c : Checked α} {a : α} : fit part c = .ok a ↔ c = .ok a := by
  cases c <;> simp [fit]

end Interface

/-! ## Diagnostics -/

/-- an answer reports an error, with or without a text -/
def ReportsError (answer : Value) : Prop :=
  ∃ es ds d, answer.get? "errors" = some es ∧ es.elements? = some ds ∧ d ∈ ds ∧ d.get? "severity" = some (.text "error")

namespace Diagnostic

/-- a list that is read to its end gives the diagnostic of each of its entries -/
theorem exists_of_read {vs : List Value} {ds : List Diagnostic} (h : read vs = (ds, true)) {v : Value} (hv : v ∈ vs) :
    ∃ d ∈ ds, ofValue? v = some d := by
  induction vs generalizing ds with
  | nil => cases hv
  | cons w vs ih =>
    unfold read at h
    cases hw : ofValue? w with
    | none =>
      rw [hw] at h
      cases h
    | some d =>
      rw [hw] at h
      obtain ⟨rfl, hdone⟩ := Prod.ext_iff.1 h
      rcases List.mem_cons.1 hv with rfl | hv
      · exact ⟨d, List.mem_cons_self, hw⟩
      · obtain ⟨e, he, hev⟩ := ih (Prod.ext rfl hdone) hv
        exact ⟨e, List.mem_cons_of_mem d he, hev⟩

/-- what has the severity of an error is an error, whatever else it holds -/
theorem ofValue?_of_severity {v : Value} {d : Diagnostic} (h : ofValue? v = some d)
    (hs : v.get? "severity" = some (.text "error")) : ∃ m, d = .error m := by
  unfold ofValue? at h
  split at h
  · next es =>
    have hfield : Value.field? "severity" es = some (.text "error") := hs
    rw [hfield] at h
    exact ⟨_, (Option.some.inj h).symm⟩
  · cases h

/-- an answer that is read to its end without an error reports none -/
theorem not_reportsError_of_errors {answer : Value} {ds : List Diagnostic} (h : ofAnswer answer = (ds, true))
    (he : errors ds = []) : ¬ ReportsError answer := by
  rintro ⟨es, vs, v, hes, hvs, hv, hs⟩
  have htruthy : es.isTruthy = true := by
    cases ht : es.isTruthy with
    | true => rfl
    | false =>
      rw [Value.elements?_of_not_isTruthy ht hvs] at hv
      cases hv
  have hread : read vs = (ds, true) := by
    unfold ofAnswer at h
    rw [Value.fieldOrNull_of_get? hes, Option.bind_some, Value.orElse, if_pos htruthy, hvs] at h
    exact h
  obtain ⟨d, hd, hdv⟩ := exists_of_read hread hv
  obtain ⟨m, rfl⟩ := ofValue?_of_severity hdv hs
  have hm : m ∈ errors ds := List.mem_filterMap.2 ⟨_, hd, rfl⟩
  rw [he] at hm
  cases hm

end Diagnostic

/-! ## The contract in an answer -/

/-- some file of the answer holds a contract of the name with this code -/
def HoldsCode (answer : Value) (name code : String) : Prop :=
  ∃ contracts files, answer.get? "contracts" = some contracts ∧ contracts.entries? = some files ∧
    ∃ file ∈ files, ∃ data evm bytecode, file.2.get? name = some data ∧ data.get? "evm" = some evm ∧
      evm.get? "bytecode" = some bytecode ∧ bytecode.get? "object" = some (.text code)

namespace Artifact

open Interface

theorem length_of_messages {field : String} {vs : List Value} {ms : List String} (h : messages field vs = .ok ms) :
    ms.length = vs.length :=
  (Schema.forall₂_of_items (Checked.under_eq_ok_iff.1 h)).length_eq.symm

/-- what is found is what the first value with the name holds -/
theorem search_eq_ok_some {name : String} {vs : List Value} {d : Value} (h : search name vs = .ok (some d)) :
    ∃ before v after, vs = before ++ v :: after ∧ (∀ w ∈ before, w.get? name = none) ∧ v.get? name = some d := by
  induction vs with
  | nil => cases h
  | cons v vs ih =>
    unfold search at h
    split at h
    · cases h
    · next habsent =>
      obtain ⟨before, w, after, rfl, hbefore, hd⟩ := ih h
      exact ⟨v :: before, w, after, rfl, List.forall_mem_cons.2 ⟨Value.get?_of_lookUp_absent habsent, hbefore⟩, hd⟩
    · next e he =>
      obtain rfl := Option.some.inj (Except.ok.inj h)
      exact ⟨[], v, vs, rfl, nofun, Value.get?_of_lookUp he⟩

/-- what is found stands under the name in the first file of the answer that holds the name -/
theorem found?_eq_ok_some {name : String} {answer data : Value} (h : found? name answer = .ok (some data)) :
    data ≠ .null ∧ ∃ contracts before file after, answer.get? "contracts" = some contracts ∧
      contracts.entries? = some (before ++ file :: after) ∧ (∀ f ∈ before, f.2.get? name = none) ∧
      file.2.get? name = some data := by
  simp only [found?, bind_eq_ok_iff, need_eq_ok_iff] at h
  obtain ⟨contracts, hcontracts, files, hfiles, d, hd, h⟩ := h
  have hdata : data ≠ .null ∧ d = some data := by
    split at h
    · cases h
    · next hne =>
      obtain rfl := Except.ok.inj h
      exact ⟨fun he => hne (congrArg some he), rfl⟩
  obtain ⟨hne, rfl⟩ := hdata
  obtain ⟨_, _, _, hvalues, hbefore, hfound⟩ := search_eq_ok_some hd
  obtain ⟨before, _, rfl, rfl, hrest⟩ := List.map_eq_append_iff.1 hvalues
  obtain ⟨file, after, rfl, rfl, rfl⟩ := List.map_eq_cons_iff.1 hrest
  -- there is a file, so the contracts were not replaced
  have htruthy : contracts.isTruthy = true := by
    cases ht : contracts.isTruthy with
    | true => rfl
    | false =>
      rw [Value.orElse, ht] at hfiles
      cases before <;> cases Option.some.inj hfiles
  rw [Value.orElse, if_pos htruthy] at hfiles
  have hnull : contracts ≠ .null := by
    rintro rfl
    cases htruthy
  exact ⟨hne, contracts, before, file, after, Value.get?_of_fieldOrNull hcontracts hnull, hfiles,
    List.forall_mem_map.1 hbefore, hfound⟩

/-- code that is read is the text of a field, and not empty -/
theorem codeOf_eq_ok_some {evm : Value} {field c : String} (h : codeOf evm field = .ok (some c)) :
    ∃ part code, evm.fieldOrNull field = some part ∧ part.get? "object" = some (.text code) ∧ code ≠ "" ∧
      c = Compiler.marked code := by
  simp only [codeOf, bind_eq_ok_iff, need_eq_ok_iff] at h
  obtain ⟨part, hpart, code, hcode, h⟩ := h
  split at h
  · cases h
  · next ht =>
    split at h
    · next s =>
      have hs : s ≠ "" := by
        rintro rfl
        exact ht rfl
      obtain rfl := Option.some.inj (Except.ok.inj h)
      exact ⟨part, s, hpart, Value.get?_of_orElse hcode (by nofun), hs, rfl⟩
    · cases h

/-- code that is read for a contract that was found is the code of a contract of the answer -/
theorem holdsCode_of_codeOf {name c : String} {answer data evm : Value} (hfound : found? name answer = .ok (some data))
    (hevm : data.fieldOrNull "evm" = some evm) (hcode : codeOf (evm.orElse .emptyMap) "bytecode" = .ok (some c)) :
    ∃ code, HoldsCode answer name code ∧ code ≠ "" ∧ c = Compiler.marked code := by
  obtain ⟨-, contracts, before, file, after, hcontracts, hfiles, -, hdata⟩ := found?_eq_ok_some hfound
  obtain ⟨part, code, hpart, hobject, hne, hc⟩ := codeOf_eq_ok_some hcode
  have hbytecode : evm.get? "bytecode" = some part := Value.get?_of_orElse hpart (Value.ne_null_of_get? hobject)
  have hevm' : data.get? "evm" = some evm := Value.get?_of_fieldOrNull hevm (Value.ne_null_of_get? hbytecode)
  exact ⟨code, ⟨contracts, _, hcontracts, hfiles, file, List.mem_append_right before List.mem_cons_self, data, evm, part,
    hdata, hevm', hbytecode, hobject⟩, hne, hc⟩

/-- an artifact that was read from a contract's part of the answer -/
theorem ofPart_eq_ok {name source : String} {answer data : Value} {errors warnings : List Value} {a : Artifact}
    (h : ofPart name source answer data errors warnings = .ok a) :
    a.name = name ∧ a.source = source ∧ a.errors.length = errors.length ∧
      (∃ infos, Interface.all answer = .ok infos ∧ a.info = infos.find? fun i => i.name == name) ∧
      (∃ listed entries abi, data.fieldOrNull "abi" = some listed ∧ (listed.orElse (.list [])).elements? = some entries ∧
        Schema.items (Schema.table Schema.any) 0 entries = .ok abi ∧ a.abi = some abi) ∧
      ∃ evm, data.fieldOrNull "evm" = some evm ∧ codeOf (evm.orElse .emptyMap) "bytecode" = .ok a.bytecode := by
  simp only [ofPart, bind_eq_ok_iff, need_eq_ok_iff, fit_eq_ok_iff] at h
  obtain ⟨evm, hevm, metadata, -, metadata', -, infos, hinfos, listed, hlisted, entries, hentries, code, hcode, h⟩ := h
  obtain ⟨deployed, -, gas, -, h⟩ := h
  obtain ⟨_, ws, hwarned, -, rfl⟩ := Checked.seq_eq_ok_iff.1 h
  obtain ⟨_, es, hfailed, hes, rfl⟩ := Checked.seq_eq_ok_iff.1 hwarned
  obtain ⟨_, table, hdescribed, -, rfl⟩ := Checked.seq_eq_ok_iff.1 hfailed
  obtain ⟨_, estimates, hestimated, -, rfl⟩ := Checked.seq_eq_ok_iff.1 hdescribed
  obtain ⟨abi, habi, rfl⟩ := Checked.functor_map_eq_ok_iff.1 hestimated
  exact ⟨rfl, rfl, length_of_messages hes, ⟨infos, hinfos, rfl⟩,
    ⟨listed, entries, abi, hlisted, hentries, Checked.under_eq_ok_iff.1 habi, rfl⟩, evm, hevm, hcode⟩

/-- an artifact of a contract that the answer does not hold -/
theorem missing_eq_ok {name source : String} {errors warnings : List Value} {a : Artifact}
    (h : missing name source errors warnings = .ok a) :
    a.name = name ∧ a.source = source ∧ a.abi = some [] ∧ a.bytecode = none := by
  rw [missing, fit_eq_ok_iff] at h
  obtain ⟨_, ws, hwarned, -, rfl⟩ := Checked.seq_eq_ok_iff.1 h
  obtain ⟨es, -, rfl⟩ := Checked.functor_map_eq_ok_iff.1 hwarned
  exact ⟨rfl, rfl, rfl, rfl⟩

theorem isCompiled_iff {a : Artifact} : a.isCompiled = true ↔ (∃ code, a.bytecode = some code) ∧ a.errors = [] := by
  rw [isCompiled, Bool.and_eq_true, Option.isSome_iff_exists, List.isEmpty_iff]

/-- an artifact that was read, and what the answer holds when it counts as compiled -/
theorem read_eq_ok {name source : String} {answer : Value} {a : Artifact}
    (h : (read name source answer).outcome = .ok a) :
    a.name = name ∧ a.source = source ∧ (∃ abi, a.abi = some abi) ∧
      (a.isCompiled = true → ∃ code, HoldsCode answer name code ∧ code ≠ "" ∧
        a.bytecode = some (Compiler.marked code) ∧ ¬ ReportsError answer) := by
  cases hds : Diagnostic.ofAnswer answer with
  | mk ds done =>
    simp only [read, hds] at h
    cases done with
    | false => cases h
    | true =>
      cases hfound : found? name answer with
      | error f =>
        rw [hfound] at h
        cases h
      | ok part =>
        rw [hfound] at h
        cases part with
        | none =>
          obtain ⟨hname, hsource, habi, hcode⟩ := missing_eq_ok h
          refine ⟨hname, hsource, ⟨[], habi⟩, fun hc => ?_⟩
          obtain ⟨⟨code, hsome⟩, -⟩ := isCompiled_iff.1 hc
          rw [hcode] at hsome
          cases hsome
        | some data =>
          obtain ⟨hname, hsource, hlength, -, ⟨-, -, abi, -, -, -, habi⟩, evm, hevm, hcode⟩ := ofPart_eq_ok h
          refine ⟨hname, hsource, ⟨abi, habi⟩, fun hc => ?_⟩
          obtain ⟨⟨c, hbytecode⟩, herrors⟩ := isCompiled_iff.1 hc
          rw [hbytecode] at hcode
          obtain ⟨code, hholds, hne, rfl⟩ := holdsCode_of_codeOf hfound hevm hcode
          rw [herrors, List.length_nil, eq_comm, List.length_eq_zero_iff] at hlength
          exact ⟨code, hholds, hne, hbytecode, Diagnostic.not_reportsError_of_errors hds hlength⟩

end Artifact

/-! ## The whole generation -/

namespace Generation

/-- the source that is kept: none is when it cannot be written -/
def sourceOf (g : Graph) (o : EmissionOptions) : String := if Source.IsWithinBounds g then Source.emit g o else ""

/-- what is sent: a request for a source that can be written, of a contract whose name is an identifier, and nothing for
any other -/
def requestOf (g : Graph) (o : EmissionOptions) (s : CompilerSettings) : Option Value :=
  if Source.IsWithinBounds g ∧ Text.isIdentifier o.contractName.toList = true then
    some (Compiler.request (Source.emit g o) o.contractName s)
  else none

/-- a generation whose source is written -/
theorem run_of_isWithinBounds {g : Graph} (h : Source.IsWithinBounds g) (o : EmissionOptions) (s : CompilerSettings)
    (service : CompilerService) :
    run g o s service =
      if Text.isIdentifier o.contractName.toList then
        send o (Source.emit g o) (Compiler.request (Source.emit g o) o.contractName s) service (Source.notices g)
      else failed o (Source.emit g o) (.invalidName o.contractName) none (Source.notices g) := by
  rw [run, Source.write_of_isWithinBounds h]

/-- a generation whose source is not written -/
theorem run_of_not_isWithinBounds {g : Graph} (h : ¬ Source.IsWithinBounds g) (o : EmissionOptions)
    (s : CompilerSettings) (service : CompilerService) :
    run g o s service = failed o "" (.emission .tooDeep) none (Source.write g o).notices := by
  simp only [run, Source.write_of_not_isWithinBounds h]

/-- a request that is sent has no artifact but the source's, or the one that is read from its answer -/
theorem send_cases (o : EmissionOptions) (source : String) (request : Value) (service : CompilerService)
    (notices : List Notice) :
    (∃ f noticed, send o source request service notices = failed o source f (some request) noticed) ∨
      ∃ answer a noticed, (service request).outcome = .ok answer ∧
        (Artifact.read o.contractName source answer).outcome = .ok a ∧
        send o source request service notices = ⟨a, none, some request, noticed⟩ := by
  cases houtcome : (service request).outcome with
  | error f => exact Or.inl ⟨.service f, _, by simp only [send, houtcome]; rfl⟩
  | ok answer =>
    cases hread : (Artifact.read o.contractName source answer).outcome with
    | error f => exact Or.inl ⟨.answer f, _, by simp only [send, houtcome, hread]; rfl⟩
    | ok a => exact Or.inr ⟨answer, a, _, rfl, hread, by simp only [send, houtcome, hread]; rfl⟩

/-- so does a generation, which sends its request if it has one -/
theorem run_cases (g : Graph) (o : EmissionOptions) (s : CompilerSettings) (service : CompilerService) :
    (∃ f noticed, run g o s service = failed o (sourceOf g o) f (requestOf g o s) noticed) ∨
      ∃ request answer a noticed, requestOf g o s = some request ∧ (service request).outcome = .ok answer ∧
        (Artifact.read o.contractName (sourceOf g o) answer).outcome = .ok a ∧
        run g o s service = ⟨a, none, some request, noticed⟩ := by
  by_cases h : Source.IsWithinBounds g
  · rw [run_of_isWithinBounds h, sourceOf, if_pos h, requestOf]
    by_cases hname : Text.isIdentifier o.contractName.toList = true
    · rw [if_pos hname, if_pos ⟨h, hname⟩]
      rcases send_cases o (Source.emit g o) (Compiler.request (Source.emit g o) o.contractName s) service
        (Source.notices g) with hfailed | ⟨answer, a, noticed, hanswer, hread, hsend⟩
      · exact Or.inl hfailed
      · exact Or.inr ⟨_, answer, a, noticed, rfl, hanswer, hread, hsend⟩
    · rw [if_neg hname, if_neg fun hs => hname hs.2]
      exact Or.inl ⟨_, _, rfl⟩
  · rw [run_of_not_isWithinBounds h, sourceOf, if_neg h, requestOf, if_neg fun hs => h hs.1]
    exact Or.inl ⟨_, _, rfl⟩

/-- a service is asked for nothing but the answer to the request -/
theorem run_congr {g : Graph} {o : EmissionOptions} {s : CompilerSettings} {service service' : CompilerService}
    (h : ∀ request ∈ requestOf g o s, service' request = service request) :
    run g o s service' = run g o s service := by
  by_cases hb : Source.IsWithinBounds g
  · rw [run_of_isWithinBounds hb, run_of_isWithinBounds hb]
    by_cases hname : Text.isIdentifier o.contractName.toList = true
    · rw [requestOf, if_pos ⟨hb, hname⟩] at h
      rw [if_pos hname, if_pos hname, send, send, h _ rfl]
    · rw [if_neg hname, if_neg hname]
  · rw [run_of_not_isWithinBounds hb, run_of_not_isWithinBounds hb]

/-- **A generation has two outcomes, and does not count as compiled wrongly.** Whatever a service answers, or fails
with, the artifact has the contract's name and the graph's source, or no source when that cannot be written, which it can
for every graph of moderate size. The service is asked once, for the code of a source that was written, when the name is
an identifier, and else not at all. Either there is no interface, and then one error and nothing else; or there is an
interface. When the artifact counts as compiled, the answer holds a contract of the name with this code, which is not
empty, and reports no error. -/
theorem run_outcome (g : Graph) (o : EmissionOptions) (s : CompilerSettings) (service : CompilerService) :
    (run g o s service).artifact.name = o.contractName ∧
    (Source.IsWithinBounds g → (run g o s service).artifact.source = Source.emit g o) ∧
    (¬ Source.IsWithinBounds g → (run g o s service).artifact.source = "") ∧
    (g.nodes.length ≤ 323 → Source.IsWithinBounds g) ∧
    (run g o s service).request =
      (if Source.IsWithinBounds g ∧ Text.isIdentifier o.contractName.toList = true then
        some (Compiler.request (Source.emit g o) o.contractName s) else none) ∧
    (∀ service' : CompilerService,
      (∀ request ∈ (run g o s service).request, service' request = service request) →
        run g o s service' = run g o s service) ∧
    ((∃ reason, (run g o s service).artifact = {
        name := o.contractName, source := sourceOf g o, abi := none, bytecode := none, deployedBytecode := none,
        gasEstimates := none, metadata := none, info := none, errors := ["Code generation failed: " ++ reason],
        warnings := [] }) ∨
      ∃ abi, (run g o s service).artifact.abi = some abi) ∧
    ((run g o s service).artifact.isCompiled = true →
      ∃ request answer code, (run g o s service).request = some request ∧ (service request).outcome = .ok answer ∧
        HoldsCode answer o.contractName code ∧ code ≠ "" ∧
        (run g o s service).artifact.bytecode = some (Compiler.marked code) ∧ ¬ ReportsError answer) := by
  have hsource (h : (run g o s service).artifact.source = sourceOf g o) :
      (Source.IsWithinBounds g → (run g o s service).artifact.source = Source.emit g o) ∧
        (¬ Source.IsWithinBounds g → (run g o s service).artifact.source = "") :=
    ⟨fun hb => by rw [h, sourceOf, if_pos hb], fun hb => by rw [h, sourceOf, if_neg hb]⟩
  rcases run_cases g o s service with
    ⟨f, noticed, hrun⟩ | ⟨request, answer, a, noticed, hrequest, hanswer, hread, hrun⟩
  · obtain ⟨hwritten, hunwritten⟩ := hsource (by rw [hrun]; rfl)
    have hrequest : (run g o s service).request = requestOf g o s := by rw [hrun]; rfl
    refine ⟨by rw [hrun]; rfl, hwritten, hunwritten, Source.isWithinBounds_of_length_le, hrequest,
      fun service' h => run_congr (hrequest ▸ h), Or.inl ⟨f.text, by rw [hrun]; rfl⟩, fun hc => ?_⟩
    rw [hrun] at hc
    cases hc
  · obtain ⟨hname, hsource', habi, hcompiled⟩ := Artifact.read_eq_ok hread
    obtain ⟨hwritten, hunwritten⟩ := hsource (by rw [hrun]; exact hsource')
    have hsent : (run g o s service).request = some request := by rw [hrun]
    refine ⟨by rw [hrun]; exact hname, hwritten, hunwritten, Source.isWithinBounds_of_length_le, hsent.trans hrequest.symm,
      fun service' h => run_congr (hrequest ▸ hsent ▸ h), Or.inr (by rw [hrun]; exact habi), fun hc => ?_⟩
    obtain ⟨code, hholds, hne, hbytecode, herror⟩ := hcompiled (by rw [hrun] at hc; exact hc)
    exact ⟨request, answer, code, hsent, hanswer, hholds, hne, by rw [hrun]; exact hbytecode, herror⟩

/-- a compiler that answers every request with some code and some diagnostics -/
def answering (code : String) (diagnostics : List Value) : CompilerService := fun _ => {
  outcome := .ok (.record [("errors", .list diagnostics), ("contracts", .record [("GeneratedContract.sol",
    .record [("GeneratedContract", .record [("evm", .record [("bytecode", .record [("object", .text code)])])])])])])
  notices := [] }

/-- a function that assigns a sum, whose right operand is missing -/
def assigning : Graph where
  nodes := [⟨"f", .publicFn, .ofList [("name", "run")], ∅, ∅⟩, ⟨"a", .assignment, .ofList [("variable", "t")], ∅, ∅⟩,
    ⟨"s", .mathOp, .ofList [("operator", "+")], ∅, ∅⟩, ⟨"l", .literalValue, .ofList [("value", "1")], ∅, ∅⟩]
  nodup := by decide
  connections := .ofList [("flow", ⟨"f", "execution", "a", "exec_in"⟩), ("value", ⟨"s", "result", "a", "value"⟩),
    ("left", ⟨"l", "value", "s", "left"⟩)]
  metadata := ∅

/-- a diagnostic of a severity -/
def said (severity message : String) : Value := .record [("severity", .text severity), ("message", .text message)]

/-- the function is compiled with a warning, from the source that was sent -/
theorem answering_outcome :
    let gen := run assigning .default .default (answering "6001" [said "warning" "Unused variable."])
    gen.artifact.isCompiled = true ∧ gen.artifact.warnings = ["Unused variable."] ∧
      gen.artifact.source = Source.emit assigning .default ∧ "        t = 1 + true;" ∈ Source.lines assigning .default ∧
      ∃ request answer code, gen.request = some request ∧
        (answering "6001" [said "warning" "Unused variable."] request).outcome = .ok answer ∧
        HoldsCode answer "GeneratedContract" code ∧ code ≠ "" ∧ gen.artifact.bytecode = some (Compiler.marked code) ∧
        ¬ ReportsError answer := by
  have hc : (run assigning .default .default (answering "6001" [said "warning" "Unused variable."])).artifact.isCompiled =
      true := by rfl
  obtain ⟨-, hsource, -, hbounds, -, -, -, hcompiled⟩ :=
    run_outcome assigning .default .default (answering "6001" [said "warning" "Unused variable."])
  exact ⟨hc, by rfl, hsource (hbounds (by decide)), by decide +kernel, hcompiled hc⟩

-- an error counts without any text
example : (run ∅ .default .default (answering "6001" [.record [("severity", .text "error")]])).artifact.isCompiled =
    false := by rfl

/-- **A source that is not written is not sent.** A chain of five hundred sums has no source, so nothing is sent for it,
though its contract has a good name. -/
theorem chain_unsent :
    Text.isIdentifier EmissionOptions.default.contractName.toList = true ∧
      (run (Graph.chain 500) .default .default (answering "6001" [])).request = none ∧
      (run (Graph.chain 500) .default .default (answering "6001" [])).artifact.source = "" ∧
      (run (Graph.chain 500) .default .default (answering "6001" [])).artifact.errors =
        ["Code generation failed: maximum recursion depth exceeded"] := by
  rw [run_of_not_isWithinBounds (Source.not_isWithinBounds_chain (by decide))]
  exact ⟨by decide, rfl, rfl, rfl⟩

end Generation

end ContractGraph
