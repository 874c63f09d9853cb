/-
Where the parts of an artifact are from.

A contract is looked up twice in a compiler's answer: for its code and its binary interface, in the first file that holds
its name; and for what the interface says, among the interfaces of all contracts of all files. Both find the same
contract, since the interfaces are in the order of the files. So an artifact says nothing of other contracts and other
files, as long as these can be read at all.

An answer is a message, so the files and the contracts of a file have texts as names, and no name twice.

Results:
- `find?_of_all`: the first interface of a name is of the first file that holds the name;
- `exists_firstHolds_of_found?`, `found?_of_firstHolds`: and so is what is found;
- `read_eq_ok_of_firstHolds`: an artifact that was read holds what the answer holds for this contract;
- `run_describes`: all of it together, for a generation.
Witness:
- `layered_describes`: two answers with two contracts of the name, which differ elsewhere.
-/
import ContractGraph.Proofs.Compiler.Interface
import ContractGraph.Proofs.Data.Message
import ContractGraph.Proofs.SolType.Forms

namespace ContractGraph

open Interface

/-! ## The contract in an answer -/

/-- the files of an answer with the contracts of each, in their order -/
def files (answer : Value) : List (Scalar × Value) := (answer.part "contracts").entries?.getD []

/-- the first file of an answer that holds a contract of the name, and what the answer holds for that contract -/
def FirstHolds (answer : Value) (name file : String) (data : Value) : Prop :=
  ∃ before contracts after, files answer = before ++ (.text file, contracts) :: after ∧
    (∀ f ∈ before, f.2.get? name = none) ∧ contracts.get? name = some data

/-- the definitions of a contract in the syntax tree of a file of an answer -/
def definitionsOf (answer : Value) (file name : String) : List Value :=
  definitions name (((answer.part "sources").part file).part "ast")

namespace Interface

variable {sources : Value} {file name : String}

/-- the first interface of a name among those of a file's contracts is that of the contract of the name -/
theorem find?_of_fileContracts (name : String) {v : Value} (hv : v.isMessage = true) {infos : List ContractInfo}
    (h : fileContracts sources file v = .ok infos) :
    Option.Rel (fun data info => contract sources file name data = .ok info) (v.get? name)
      (infos.find? fun i => i.name == name) := by
  simp only [fileContracts, bind_eq_ok_iff, need_eq_ok_iff] at h
  obtain ⟨es, he, h⟩ := h
  obtain ⟨fields, -, rfl, -, -⟩ := Value.exists_fields hv he
  rw [Value.get?, he, Option.bind_some]
  have hreads := Reads.of_mapM h
  clear h he
  induction fields generalizing infos with
  | nil =>
    obtain rfl := List.forall₂_nil_left_iff.1 hreads
    exact .none
  | cons f fields ih =>
    obtain ⟨info, rest, hinfo, hrest, rfl⟩ := List.forall₂_cons_left_iff.1 hreads
    have hname : info.name = f.1 := (describes_of_contract hinfo).name_eq
    rw [List.map_cons, Schema.field?_cons, List.find?_cons, hname]
    by_cases hsame : name = f.1
    · rw [if_pos hsame, hsame, beq_self_eq_true]
      exact .some hinfo
    · rw [if_neg hsame, beq_eq_false_iff_ne.2 (Ne.symm hsame)]
      exact ih hrest

/-- files without the name have no interface of the name, so the first is from the first file that holds it -/
theorem find?_of_files {before after : List (Scalar × Value)} {contracts data : Value}
    (hmessage : ∀ f ∈ before ++ (.text file, contracts) :: after, f.2.isMessage = true)
    (hbefore : ∀ f ∈ before, f.2.get? name = none) (hdata : contracts.get? name = some data)
    {infos : List (List ContractInfo)}
    (h : Reads (fun e => fileContracts sources e.1.shown e.2) (before ++ (.text file, contracts) :: after) infos) :
    ∃ info, contract sources file name data = .ok info ∧ infos.flatten.find? (fun i => i.name == name) = some info := by
  induction before generalizing infos with
  | nil =>
    obtain ⟨first, rest, hfirst, -, rfl⟩ := List.forall₂_cons_left_iff.1 h
    have hrel := find?_of_fileContracts name (hmessage _ List.mem_cons_self) hfirst
    rw [hdata] at hrel
    rw [List.flatten_cons, List.find?_append]
    generalize first.find? (fun i => i.name == name) = found at hrel ⊢
    cases hrel with
    | some hinfo => exact ⟨_, hinfo, rfl⟩
  | cons f before ih =>
    obtain ⟨first, rest, hfirst, hrest, rfl⟩ := List.forall₂_cons_left_iff.1 h
    rw [List.cons_append, List.forall_mem_cons] at hmessage
    rw [List.forall_mem_cons] at hbefore
    have hrel := find?_of_fileContracts name hmessage.1 hfirst
    rw [hbefore.1] at hrel
    rw [List.flatten_cons, List.find?_append]
    generalize first.find? (fun i => i.name == name) = found at hrel ⊢
    cases hrel with
    | none => exact ih hmessage.2 hbefore.2 hrest

theorem isMessage_of_mem_files {answer : Value} (hanswer : answer.isMessage = true) :
    ∀ f ∈ files answer, f.2.isMessage = true := by
  intro f hf
  cases he : (answer.part "contracts").entries? with
  | none =>
    rw [files, he] at hf
    cases hf
  | some es =>
    rw [files, he, Option.getD_some] at hf
    obtain ⟨fields, -, rfl, -, hfields⟩ := Value.exists_fields (Value.isMessage_part hanswer "contracts") he
    obtain ⟨e, hmem, rfl⟩ := List.mem_map.1 hf
    exact hfields e hmem

theorem isMessage_of_firstHolds {answer data : Value} (hanswer : answer.isMessage = true)
    (hfirst : FirstHolds answer name file data) : data.isMessage = true := by
  obtain ⟨before, contracts, after, hfiles, -, hdata⟩ := hfirst
  have hmem : (.text file, contracts) ∈ files answer := by
    rw [hfiles]
    exact List.mem_append_right before List.mem_cons_self
  exact Value.isMessage_of_get? (isMessage_of_mem_files hanswer _ hmem) hdata

/-- the first interface of a name in an answer is of the first file that holds the name -/
theorem find?_of_all {answer data : Value} (hanswer : answer.isMessage = true) {infos : List ContractInfo}
    (h : Interface.all answer = .ok infos) (hfirst : FirstHolds answer name file data) :
    ∃ info, Describes name file (data.parts "abi") (definitionsOf answer file name) info ∧
      infos.find? (fun i => i.name == name) = some info := by
  simp only [Interface.all, bind_eq_ok_iff, need_eq_ok_iff] at h
  obtain ⟨parsed, hparsed, held, hheld, es, hes, found, hfound, h⟩ := h
  obtain rfl := Except.ok.inj h
  obtain ⟨before, contracts, after, hfiles, hbefore, hdata⟩ := hfirst
  have hentries : files answer = es := by
    rw [files, Value.part_of_fieldOrNull hheld, Value.entries?_orElse hes]
  have hmessage := isMessage_of_mem_files hanswer
  rw [← hentries] at hfound
  rw [hfiles] at hfound hmessage
  obtain ⟨info, hinfo, hfind⟩ := find?_of_files hmessage hbefore hdata (Reads.of_mapM hfound)
  have hdescribes := describes_of_contract hinfo
  rw [Value.part_orElse, ← Value.part_of_fieldOrNull hparsed] at hdescribes
  exact ⟨info, hdescribes, hfind⟩

end Interface

namespace Artifact

variable {name file : String} {answer data : Value}

/-- what is found is what the first file with the name holds -/
theorem exists_firstHolds_of_found? (hanswer : answer.isMessage = true) (h : found? name answer = .ok (some data)) :
    data ≠ .null ∧ ∃ file, FirstHolds answer name file data := by
  obtain ⟨hne, held, before, ⟨key, contracts⟩, after, hheld, hentries, hbefore, hdata⟩ := found?_eq_ok_some h
  obtain ⟨fields, -, hfields, -, -⟩ := Value.exists_fields (Value.isMessage_of_get? hanswer hheld) hentries
  have hmem : (key, contracts) ∈ fields.map fun f => (Scalar.text f.1, f.2) := by
    rw [← hfields]
    exact List.mem_append_right before List.mem_cons_self
  obtain ⟨f, -, hf⟩ := List.mem_map.1 hmem
  obtain ⟨rfl, rfl⟩ := Prod.mk.inj hf
  refine ⟨hne, f.1, before, f.2, after, ?_, hbefore, hdata⟩
  rw [files, Value.part, hheld, Option.getD_some, hentries, Option.getD_some]

/-- files without the name are passed over, if the name can be looked up in them at all -/
theorem search_of_before {contracts : Value} {before after : List Value} (hbefore : ∀ v ∈ before, v.get? name = none)
    (hdata : contracts.get? name = some data) {d : Option Value}
    (h : search name (before ++ contracts :: after) = .ok d) : d = some data := by
  induction before with
  | nil =>
    rw [List.nil_append, search, Value.lookUp_of_get? hdata] at h
    exact (Except.ok.inj h).symm
  | cons v before ih =>
    rw [List.forall_mem_cons] at hbefore
    rw [List.cons_append, search] at h
    split at h
    · cases h
    · exact ih hbefore.2 h
    · next hfound =>
      rw [Value.get?_of_lookUp hfound] at hbefore
      cases hbefore.1

/-- what the first file with the name holds is found, if anything is read -/
theorem found?_of_firstHolds (hfirst : FirstHolds answer name file data) (hdata : data ≠ .null) {d : Option Value}
    (h : found? name answer = .ok d) : d = some data := by
  simp only [found?, bind_eq_ok_iff, need_eq_ok_iff] at h
  obtain ⟨held, hheld, es, hes, d', hsearch, h⟩ := h
  obtain ⟨before, contracts, after, hfiles, hbefore, hget⟩ := hfirst
  have hentries : files answer = es := by
    rw [files, Value.part_of_fieldOrNull hheld, Value.entries?_orElse hes]
  rw [← hentries, hfiles, List.map_append, List.map_cons] at hsearch
  obtain rfl := search_of_before (List.forall_mem_map.2 hbefore) hget hsearch
  split at h
  · next hnull => exact absurd (Option.some.inj hnull) hdata
  · exact (Except.ok.inj h).symm

/-- the code that a value is, with its mark; what is no text, and the empty text, is none -/
def code? (v : Value) : Option String :=
  match v with
  | .text s => if s = "" then none else some (Compiler.marked s)
  | _ => none

theorem codeOf_eq_ok {evm : Value} {field : String} {c : Option String}
    (h : codeOf (evm.orElse .emptyMap) field = .ok c) : c = code? ((evm.part field).part "object") := by
  simp only [codeOf, bind_eq_ok_iff, need_eq_ok_iff] at h
  obtain ⟨part, hpart, code, hcode, h⟩ := h
  rw [← Value.part_orElse evm, Value.part_of_fieldOrNull hpart, ← Value.part_orElse, Value.part_of_fieldOrNull hcode]
  split at h
  · next hfalse =>
    obtain rfl := Except.ok.inj h
    unfold code?
    split
    · next s =>
      rw [if_pos]
      simpa [Value.isTruthy] using hfalse
    · rfl
  · next htrue =>
    split at h
    · next s =>
      have hs : s ≠ "" := by
        rintro rfl
        exact htrue rfl
      obtain rfl := Except.ok.inj h
      rw [code?, if_neg hs]
    · cases h

/-- an artifact that was read holds what the answer holds for the contract -/
theorem read_eq_ok_of_firstHolds {source : String} (hanswer : answer.isMessage = true)
    (hfirst : FirstHolds answer name file data) (hdata : data ≠ .null) {a : Artifact}
    (h : (read name source answer).outcome = .ok a) :
    ∃ info abi, a.info = some info ∧ Describes name file (data.parts "abi") (definitionsOf answer file name) info ∧
      a.abi = some abi ∧ abi.map Value.ofTable = data.parts "abi" ∧
      a.bytecode = code? (((data.part "evm").part "bytecode").part "object") := by
  cases hds : Diagnostic.ofAnswer answer with
  | mk ds done =>
    simp only [read, hds] at h
    cases done with
    | false => cases h
    | true =>
      cases hfound : found? name answer with
      | error f =>
        rw [hfound] at h
        cases h
      | ok d =>
        obtain rfl := found?_of_firstHolds hfirst hdata hfound
        rw [hfound] at h
        obtain ⟨-, -, -, ⟨infos, hinfos, hinfo⟩, ⟨listed, entries, abi, hlisted, hentries, hread, habi⟩, evm, hevm, hcode⟩ :=
          ofPart_eq_ok h
        obtain ⟨info, hdescribes, hfind⟩ := find?_of_all hanswer hinfos hfirst
        have hparts : data.parts "abi" = entries := by
          rw [Value.parts, Value.part_of_fieldOrNull hlisted, Value.elements?_orElse hentries]
        have hentry := Value.isMessage_of_mem_parts (isMessage_of_firstHolds hanswer hfirst) "abi"
        have hobject := codeOf_eq_ok hcode
        rw [← Value.part_of_fieldOrNull hevm] at hobject
        rw [hparts] at hentry ⊢
        exact ⟨info, abi, hinfo.trans hfind, hparts ▸ hdescribes, habi, Value.map_ofTable_of_items hentry hread, hobject⟩

end Artifact

namespace Generation

/-- an artifact with a binary interface is the one that was read from the answer -/
theorem read_of_abi {g : Graph} {o : EmissionOptions} {s : CompilerSettings} {service : CompilerService} {answer : Value}
    {abi : List (Table Value)}
    (hanswer : (service (Compiler.request (Source.emit g o) o.contractName s)).outcome = .ok answer)
    (habi : (run g o s service).artifact.abi = some abi) :
    (Artifact.read o.contractName (Source.emit g o) answer).outcome = .ok (run g o s service).artifact := by
  rcases run_cases g o s service with ⟨f, noticed, hrun⟩ | ⟨request, answer', a, noticed, hrequest, hanswer', hread, hrun⟩
  · rw [hrun] at habi
    cases habi
  · unfold requestOf at hrequest
    split at hrequest
    · next hsent =>
      obtain rfl := Option.some.inj hrequest
      obtain rfl := Except.ok.inj (hanswer.symm.trans hanswer')
      rw [sourceOf, if_pos hsent.1] at hread
      rw [hrun]
      exact hread
    · cases hrequest

/-- **An artifact's interface, binary interface and code are of one contract.** When a generation has a binary interface,
and the contract was found in the answer, a message, then the artifact has an interface, too. It is that of the contract
of the first file that holds the name, where the binary interface and the code are from: its functions and events are
those of the entries of this binary interface, with their names, parameters and types, and everything else is of the
definitions of the name in the syntax tree of this file. Nothing else of an answer matters: any answer whose first file
with the name is this one, holds the same for the contract and has the same definitions of it, gives the same. -/
theorem run_describes (g : Graph) (o : EmissionOptions) (s : CompilerSettings) (service : CompilerService)
    {answer data : Value} {abi : List (Table Value)}
    (hanswer : (service (Compiler.request (Source.emit g o) o.contractName s)).outcome = .ok answer)
    (hmessage : answer.isMessage = true) (hfound : Artifact.found? o.contractName answer = .ok (some data))
    (habi : (run g o s service).artifact.abi = some abi) :
    ∃ file info, FirstHolds answer o.contractName file data ∧
      (run g o s service).artifact.info = some info ∧
      Describes o.contractName file (abi.map Value.ofTable) (definitionsOf answer file o.contractName) info ∧
      abi.map Value.ofTable = data.parts "abi" ∧
      (run g o s service).artifact.bytecode =
        Artifact.code? (((data.part "evm").part "bytecode").part "object") ∧
      ∀ (service' : CompilerService) (answer' : Value) (abi' : List (Table Value)),
        (service' (Compiler.request (Source.emit g o) o.contractName s)).outcome = .ok answer' →
        answer'.isMessage = true → FirstHolds answer' o.contractName file data →
        definitionsOf answer' file o.contractName = definitionsOf answer file o.contractName →
        (run g o s service').artifact.abi = some abi' →
        abi' = abi ∧ (run g o s service').artifact.info = some info ∧
          (run g o s service').artifact.bytecode = (run g o s service).artifact.bytecode := by
  obtain ⟨hdata, file, hfirst⟩ := Artifact.exists_firstHolds_of_found? hmessage hfound
  obtain ⟨info, abi₁, hinfo, hdescribes, habi₁, hparts, hcode⟩ :=
    Artifact.read_eq_ok_of_firstHolds hmessage hfirst hdata (read_of_abi hanswer habi)
  obtain rfl := Option.some.inj (habi.symm.trans habi₁)
  refine ⟨file, info, hfirst, hinfo, hparts ▸ hdescribes, hparts, hcode, ?_⟩
  intro service' answer' abi' hanswer' hmessage' hfirst' hdefinitions habi'
  obtain ⟨info', abi₂, hinfo', hdescribes', habi₂, hparts', hcode'⟩ :=
    Artifact.read_eq_ok_of_firstHolds hmessage' hfirst' hdata (read_of_abi hanswer' habi')
  obtain rfl := Option.some.inj (habi'.symm.trans habi₂)
  rw [hdefinitions] at hdescribes'
  refine ⟨(List.map_inj_right fun _ _ h => Value.ofTable_injective h).1 (hparts'.trans hparts.symm), ?_, ?_⟩
  · rw [hinfo', hdescribes'.unique hdescribes]
  · rw [hcode', hcode]

/-- what a compiler says of a contract with one function, one event and some code -/
def contractPart (function code : String) : Value :=
  .record [
    ("abi", .list [
      .record [("type", .text "function"), ("name", .text function),
        ("inputs", .list [.record [("name", .text "to"), ("type", .text "address")]]),
        ("outputs", .list [.record [("type", .text "bool")]]), ("stateMutability", .text "view")],
      .record [("type", .text "event"), ("name", .text "Moved"),
        ("inputs", .list [.record [("name", .text "to"), ("type", .text "address"), ("indexed", .bool true)]])]]),
    ("evm", .record [("bytecode", .record [("object", .text code)])])]

/-- the definition of a token that has an owner and an enum -/
def tokenDefinition (name enum : String) : Value :=
  .record [("nodeType", .text "ContractDefinition"), ("name", .text name),
    ("baseContracts", .list [.record [("baseName", .record [("name", .text "Token")])]]),
    ("nodes", .list [
      .record [("nodeType", .text "VariableDeclaration"), ("stateVariable", .bool true), ("name", .text "owner"),
        ("typeName", .record [("name", .text "address")]), ("mutability", .text "immutable")],
      .record [("nodeType", .text "EnumDefinition"), ("name", .text enum),
        ("members", .list [.record [("name", .text "Open")]])]])]

/-- a file with this definition alone -/
def tokenTree (name enum : String) : Value :=
  .record [("ast", .record [("nodes", .list [tokenDefinition name enum])])]

/-- three files: the first has another contract, and each of the others has a contract of the default name; only the
second has the code that counts, and a name stands for what is held elsewhere -/
def layered (other : String) : Value :=
  .record [
    ("contracts", .record [
      ("Base.sol", .record [("Base", contractPart other "6000")]),
      ("Generated.sol", .record [("Helper", contractPart other "6001"),
        ("GeneratedContract", contractPart "transfer" "6002")]),
      ("Old.sol", .record [("GeneratedContract", contractPart other "6003")])]),
    ("sources", .record [
      ("Base.sol", tokenTree "Base" other),
      ("Generated.sol", tokenTree "GeneratedContract" "State"),
      ("Old.sol", tokenTree "GeneratedContract" other)])]

/-- a compiler that gives every request the same answer -/
def constant (answer : Value) : CompilerService := fun _ => ⟨.ok answer, []⟩

def address : SolType := .elementary "address" .address none false none

def boolean : SolType := .elementary "bool" .boolean none false none

theorem spells_address : Spells (.text "address") address := .text (SolType.read_of_elementary rfl (by decide))

theorem spells_boolean : Spells (.text "bool") boolean := .text (SolType.read_of_elementary rfl (by decide))

/-- the interface of the contract in the second file -/
def transferring : ContractInfo where
  name := "GeneratedContract"
  source := "Generated.sol"
  functions := [⟨"transfer", [⟨"to", address, false⟩], [⟨"", boolean, false⟩], "view"⟩]
  events := [⟨"Moved", [⟨"to", address, true⟩]⟩]
  stateVariables := [⟨"owner", address, "internal", false, true⟩]
  structs := []
  enums := [⟨"State", ["Open"]⟩]
  inheritance := [.text "Token"]

theorem definitionsOf_layered (other : String) :
    definitionsOf (layered other) "Generated.sol" "GeneratedContract" = [tokenDefinition "GeneratedContract" "State"] := by
  rfl

theorem describes_transferring :
    Describes "GeneratedContract" "Generated.sol" ((contractPart "transfer" "6002").parts "abi")
      [tokenDefinition "GeneratedContract" "State"] transferring where
  name_eq := rfl
  source_eq := rfl
  functions := .cons ⟨.text "transfer", .cons ⟨.text "to", spells_address, rfl⟩ .nil,
    .cons ⟨.text "", spells_boolean, rfl⟩ .nil, .text "view"⟩ .nil
  events := .cons ⟨.text "Moved", .cons ⟨.text "to", spells_address, rfl⟩ .nil⟩ .nil
  inheritance := rfl
  stateVariables := .cons ⟨.text "owner", spells_address, .text "internal", rfl, rfl⟩ .nil
  structs := .nil
  enums := .cons ⟨.text "State", .cons (.text "Open") .nil⟩ .nil

theorem layered_describes :
    (layered "mint").isMessage = true ∧
    Artifact.found? "GeneratedContract" (layered "mint") = .ok (some (contractPart "transfer" "6002")) ∧
    ∃ abi, (run ∅ .default .default (constant (layered "mint"))).artifact.abi = some abi ∧
      (run ∅ .default .default (constant (layered "mint"))).artifact.info = some transferring ∧
      Describes "GeneratedContract" "Generated.sol" (abi.map Value.ofTable)
        (definitionsOf (layered "mint") "Generated.sol" "GeneratedContract") transferring ∧
      (run ∅ .default .default (constant (layered "mint"))).artifact.bytecode = some "0x6002" ∧
      (run ∅ .default .default (constant (layered "burn"))).artifact.info = some transferring := by
  have hmessage : ∀ other, (layered other).isMessage = true := fun _ => by rfl
  have hfound : Artifact.found? "GeneratedContract" (layered "mint") = .ok (some (contractPart "transfer" "6002")) := by rfl
  obtain ⟨abi, habi⟩ : ∃ abi, (run ∅ .default .default (constant (layered "mint"))).artifact.abi = some abi :=
    Option.isSome_iff_exists.1 (by decide +kernel)
  obtain ⟨file, info, -, hinfo, hdescribes, hparts, hcode, hsame⟩ :=
    run_describes ∅ .default .default (constant (layered "mint")) rfl (hmessage "mint") hfound habi
  have hfile : (run ∅ .default .default (constant (layered "mint"))).artifact.info.map ContractInfo.source =
      some "Generated.sol" := by decide +kernel
  rw [hinfo] at hfile
  obtain rfl : file = "Generated.sol" := hdescribes.source_eq.symm.trans (Option.some.inj hfile)
  obtain rfl : info = transferring := by
    rw [hparts] at hdescribes
    exact hdescribes.unique (definitionsOf_layered "mint" ▸ describes_transferring)
  -- the other contracts and the other files hold something else in the second answer
  have hfirst : FirstHolds (layered "burn") "GeneratedContract" "Generated.sol" (contractPart "transfer" "6002") := by
    refine ⟨[_], _, [_], rfl, List.forall_mem_singleton.2 rfl, rfl⟩
  obtain ⟨abi', habi'⟩ : ∃ abi, (run ∅ .default .default (constant (layered "burn"))).artifact.abi = some abi :=
    Option.isSome_iff_exists.1 (by decide +kernel)
  obtain ⟨-, hinfo', -⟩ := hsame (constant (layered "burn")) (layered "burn") abi' rfl (hmessage "burn") hfirst
    ((definitionsOf_layered "burn").trans (definitionsOf_layered "mint").symm) habi'
  exact ⟨hmessage "mint", hfound, abi, habi, hinfo, hdescribes, hcode.trans (by rfl), hinfo'⟩

end Generation

end ContractGraph
