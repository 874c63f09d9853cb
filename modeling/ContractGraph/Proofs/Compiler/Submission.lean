/-
Which contracts are sent to a compiler.

A request names the contract's file, and the answer is searched for the contract's name, so the name is tested first: a
contract whose name is an identifier is sent, and one of any other name is not, one line feed behind an identifier
excepted. A source that cannot be written is not sent under any name. What is not sent asks nothing of any compiler, and
says so in its one error.

Results:
- `requestOf_isSome_iff`: the names of the contracts that are sent;
- `run_of_unsent`: a generation that sends nothing;
- `run_submits_iff`: all of it together, and what holds of names that do not end with a line feed.
Witnesses:
- `spaced_name_unsent`: a name of two words is not sent;
- `trailing_line_feed_submitted`: a name that ends with a line feed is.
-/
import ContractGraph.Proofs.Compiler.Outcome
import ContractGraph.Proofs.Text.Identifier

namespace ContractGraph.Generation

variable {g : Graph} {o : EmissionOptions} {s : CompilerSettings} {service : CompilerService}

open Text (IsName)

theorem requestOf_isSome_iff :
    (requestOf g o s).isSome = true ↔ Source.IsWithinBounds g ∧
      (IsName o.contractName.toList ∨ ∃ name, IsName name ∧ o.contractName.toList = name ++ ['\n']) := by
  rw [← Text.isIdentifier_iff, requestOf]
  split
  · next h => exact iff_of_true rfl h
  · next h => exact iff_of_false Bool.false_ne_true h

/-- a generation sends its request, whatever comes of it -/
theorem request_run (g : Graph) (o : EmissionOptions) (s : CompilerSettings) (service : CompilerService) :
    (run g o s service).request = requestOf g o s := by
  rcases run_cases g o s service with ⟨f, noticed, hrun⟩ | ⟨request, answer, a, noticed, hrequest, -, -, hrun⟩
  · rw [hrun]
    rfl
  · rw [hrun, hrequest]

theorem message_invalidName (name : String) :
    (GenerationFault.invalidName name).message =
      "Code generation failed: '" ++ name ++ "' is not a valid contract name" := by
  have hquote : "Code generation failed: " ++ "'" = "Code generation failed: '" := rfl
  have hmessage : (GenerationFault.invalidName name).message =
      "Code generation failed: " ++ ("'" ++ name ++ "' is not a valid contract name") := rfl
  rw [hmessage, ← String.append_assoc, ← String.append_assoc, hquote]

/-- why nothing is sent: the source is not written, or failing that the name is no identifier -/
def refusal (g : Graph) (o : EmissionOptions) : GenerationFault :=
  if Source.IsWithinBounds g then .invalidName o.contractName else .emission .tooDeep

/-- what a refusal tells -/
theorem message_refusal (g : Graph) (o : EmissionOptions) :
    (refusal g o).message =
      if Source.IsWithinBounds g then "Code generation failed: '" ++ o.contractName ++ "' is not a valid contract name"
      else "Code generation failed: maximum recursion depth exceeded" := by
  rw [refusal]
  split
  · exact message_invalidName o.contractName
  · rfl

/-- a generation that sends nothing -/
theorem run_of_unsent (h : requestOf g o s = none) :
    run g o s service = failed o (sourceOf g o) (refusal g o) none (Source.write g o).notices := by
  rw [requestOf] at h
  by_cases hb : Source.IsWithinBounds g
  · have hname : ¬ Text.isIdentifier o.contractName.toList = true := fun hname => by simp [hb, hname] at h
    rw [run_of_isWithinBounds hb, if_neg hname, sourceOf, if_pos hb, refusal, if_pos hb,
      Source.write_of_isWithinBounds hb]
  · rw [run_of_not_isWithinBounds hb, sourceOf, if_neg hb, refusal, if_neg hb]

/-- **Only identifiers are sent.** A generation sends a request just when its source can be written and the contract's
name is an identifier, or an identifier with one line feed behind it; so when the name does not end with a line feed, only
when it is an identifier. A generation that sends none is the same for every service, asks nothing of any toolchain, and
its artifact has the source, as far as it was written, and one error, which tells the name of a contract that was
written, and nothing else. -/
theorem run_submits_iff (g : Graph) (o : EmissionOptions) (s : CompilerSettings) (service : CompilerService) :
    ((run g o s service).request.isSome = true ↔ Source.IsWithinBounds g ∧
      (IsName o.contractName.toList ∨ ∃ name, IsName name ∧ o.contractName.toList = name ++ ['\n'])) ∧
    (o.contractName.toList.getLast? ≠ some '\n' →
      ((run g o s service).request.isSome = true ↔ Source.IsWithinBounds g ∧ IsName o.contractName.toList)) ∧
    ((run g o s service).request = none →
      (∀ service', run g o s service' = run g o s service) ∧
      (∀ c t, calls (run g o s service) c t = []) ∧
      (run g o s service).artifact = {
        name := o.contractName, source := sourceOf g o, abi := none, bytecode := none, deployedBytecode := none,
        gasEstimates := none, metadata := none, info := none,
        errors := [if Source.IsWithinBounds g then
            "Code generation failed: '" ++ o.contractName ++ "' is not a valid contract name"
          else "Code generation failed: maximum recursion depth exceeded"],
        warnings := [] }) := by
  refine ⟨?_, fun hlast => ?_, fun hnone => ?_⟩
  · rw [request_run]
    exact requestOf_isSome_iff
  · rw [request_run, requestOf_isSome_iff]
    refine and_congr_right fun _ => or_iff_left ?_
    rintro ⟨name, -, hname⟩
    exact hlast (by rw [hname, List.getLast?_concat])
  · have hunsent : requestOf g o s = none := (request_run g o s service).symm.trans hnone
    refine ⟨fun service' => ?_, fun c t => ?_, ?_⟩
    · rw [run_of_unsent hunsent, run_of_unsent hunsent]
    · rw [calls, hnone]
    · rw [run_of_unsent hunsent, failed, message_refusal]
      rfl

/-- the default options with another name -/
def named (name : String) : EmissionOptions := { EmissionOptions.default with contractName := name }

theorem spaced_name_unsent :
    ¬ IsName "My Token".toList ∧
      (run ∅ (named "My Token") .default (answering "6001" [])).request = none ∧
      (run ∅ (named "My Token") .default (answering "6001" [])).artifact.errors =
        ["Code generation failed: 'My Token' is not a valid contract name"] := by
  obtain ⟨-, hsent, hunsent⟩ := run_submits_iff ∅ (named "My Token") .default (answering "6001" [])
  have hnone : (run ∅ (named "My Token") .default (answering "6001" [])).request = none := by rfl
  have hname : ¬ IsName "My Token".toList := by
    intro h
    have hsome := (hsent (by decide)).2 ⟨Source.isWithinBounds_of_length_le (by decide), h⟩
    rw [hnone] at hsome
    cases hsome
  obtain ⟨-, -, hartifact⟩ := hunsent hnone
  exact ⟨hname, hnone, by rw [hartifact]; rfl⟩

/-- **A line feed behind the name is sent.** The name is no identifier, and the file of the request is named with the
line feed. -/
theorem trailing_line_feed_submitted :
    ¬ IsName "Token\n".toList ∧
      (run ∅ (named "Token\n") .default (answering "6001" [])).request =
        some (Compiler.request (Source.emit ∅ (named "Token\n")) "Token\n" .default) ∧
      Compiler.fileName "Token\n" = "Token\n.sol" := by
  refine ⟨fun h => absurd h.notMem_lineFeed (by decide), ?_, by decide⟩
  rw [request_run]
  rfl

end ContractGraph.Generation
