import Melissa.Base.NextFree
import Melissa.Base.Runs
import Melissa.Messages.Connection

/-! The port a server rank takes for its data: `create_port_number` on the ranks of a node. -/

namespace Melissa

open NextFree Runs

section Create

/-- The body of the loop over the earlier ranks. -/
def countNode (nodeName : CString) (forbidden : List Int) (port : Int) (other : CString) :
    Option Int :=
  if other = nodeName then next forbidden (2 ^ 31) port else some port

/-- `create_port_number`, with the forbidden ports as a list; none if an `int` overflows. -/
def createPortNumber (nodeNames : List CString) (rank : Nat) (startNumber : Int)
    (forbidden : List Int) : Option Int := do
  let _ ← mulInt mpiMaxProcessorName nodeNames.length
  let nodeName ← nodeNames[rank]?
  run (countNode nodeName forbidden) startNumber (nodeNames.take rank)

/-- The ports `melissa_server_init` keeps for other purposes. -/
def serverForbidden (txtPushPort txtPullPort txtReqPort : Int) : List Int :=
  [txtPushPort, txtPullPort, txtReqPort, 2002, 2003]

/-- Every rank has a port that is not forbidden, and on a node the ports increase. -/
structure PortsAssigned (nodeNames : List CString) (startNumber : Int) (forbidden : List Int) :
    Prop where
  numbered : ∀ rank < nodeNames.length, ∃ port,
    createPortNumber nodeNames rank startNumber forbidden = some port ∧ port ∉ forbidden
  increasing : ∀ rank rank' port port', rank < rank' → nodeNames[rank]? = nodeNames[rank']? →
    createPortNumber nodeNames rank startNumber forbidden = some port →
    createPortNumber nodeNames rank' startNumber forbidden = some port' → port < port'

end Create

section Ports

variable {nodeNames : List CString} {nodeName : CString} {rank : Nat} {startNumber : Int}
  {forbidden : List Int}

/-- The loop takes one number for each earlier rank of the node. -/
theorem run_countNode (others : List CString) (port : Int) :
    run (countNode nodeName forbidden) port others =
      take forbidden (2 ^ 31) port (others.count nodeName) := by
  induction others generalizing port with
  | nil => rfl
  | cons other rest ih =>
      rw [run_cons, countNode, List.count_cons]
      by_cases same : other = nodeName
      · rw [if_pos same, if_pos (beq_iff_eq.mpr same), take]
        exact Option.bind_congr fun port _ => ih port
      · rw [if_neg same, if_neg (fun here => same (beq_iff_eq.mp here)), Option.bind_some, ih]
        rfl

/-- Without an overflow of the array's size a rank has the number at its place on the node. -/
theorem createPortNumber_eq (fits : mpiMaxProcessorName * nodeNames.length < 2 ^ 31)
    (here : nodeNames[rank]? = some nodeName) :
    createPortNumber nodeNames rank startNumber forbidden =
      take forbidden (2 ^ 31) startNumber ((nodeNames.take rank).count nodeName) := by
  rw [createPortNumber, mulInt_natCast fits, here]
  exact run_countNode _ _

theorem fits_of_createPortNumber {port : Int}
    (created : createPortNumber nodeNames rank startNumber forbidden = some port) :
    mpiMaxProcessorName * nodeNames.length < 2 ^ 31 := by
  rw [createPortNumber, Option.bind_eq_bind, Option.bind_eq_some_iff] at created
  obtain ⟨size, product, _⟩ := created
  exact lt_of_mulInt product

theorem count_take_lt (here : nodeNames[rank]? = some nodeName) :
    (nodeNames.take rank).count nodeName < nodeNames.count nodeName := by
  obtain ⟨inside, rfl⟩ := List.getElem?_eq_some_iff.mp here
  calc
    _ < (nodeNames.take (rank + 1)).count nodeNames[rank] := by
      rw [List.take_succ_eq_append_getElem inside, List.count_append, List.count_singleton_self]
      exact Nat.lt_succ_self _
    _ ≤ _ := (List.take_sublist _ _).count_le _

theorem count_take_lt_count_take {rank' : Nat} (earlier : rank < rank')
    (here : nodeNames[rank]? = some nodeName) :
    (nodeNames.take rank).count nodeName < (nodeNames.take rank').count nodeName := by
  have before : (nodeNames.take rank').take rank = nodeNames.take rank := by
    rw [List.take_take, Nat.min_eq_left (Nat.le_of_lt earlier)]
  have inside : (nodeNames.take rank')[rank]? = some nodeName := by
    rw [List.getElem?_take_of_lt earlier, here]
  have counted := count_take_lt inside
  rwa [before] at counted

/-- The last rank of a node has all the others before it. -/
theorem exists_last_rank (member : nodeName ∈ nodeNames) :
    ∃ rank, nodeNames[rank]? = some nodeName ∧
      (nodeNames.take rank).count nodeName + 1 = nodeNames.count nodeName := by
  induction nodeNames using List.reverseRecOn with
  | nil => cases member
  | append_singleton front last ih =>
      by_cases same : last = nodeName
      · refine ⟨front.length, by rw [List.getElem?_concat_length, same], ?_⟩
        rw [List.take_left, List.count_append, same, List.count_singleton_self]
      · have before : nodeName ∈ front := by
          rcases List.mem_append.mp member with earlier | later
          · exact earlier
          · exact absurd (List.mem_singleton.mp later).symm same
        obtain ⟨rank, here, counted⟩ := ih before
        have inside : rank < front.length := (List.getElem?_eq_some_iff.mp here).1
        refine ⟨rank, by rw [List.getElem?_append_left inside, here], ?_⟩
        rw [List.take_append_of_le_length (Nat.le_of_lt inside), counted, List.count_append,
          List.count_eq_zero.mpr (fun other => same (List.mem_singleton.mp other).symm),
          Nat.add_zero]

theorem rank_of_createPortNumber {port : Int}
    (created : createPortNumber nodeNames rank startNumber forbidden = some port) :
    rank < nodeNames.length := by
  have fits := fits_of_createPortNumber created
  by_contra outside
  rw [createPortNumber, mulInt_natCast fits,
    List.getElem?_eq_none (Nat.le_of_not_lt outside)] at created
  cases created

/-- A later rank of a node takes a larger number. -/
theorem createPortNumber_increasing {rank' : Nat} {port port' : Int} (earlier : rank < rank')
    (same : nodeNames[rank]? = nodeNames[rank']?)
    (created : createPortNumber nodeNames rank startNumber forbidden = some port)
    (created' : createPortNumber nodeNames rank' startNumber forbidden = some port') :
    port < port' := by
  have fits := fits_of_createPortNumber created
  have here' := List.getElem?_eq_getElem (rank_of_createPortNumber created')
  have here := same.trans here'
  rw [createPortNumber_eq fits here] at created
  rw [createPortNumber_eq fits here'] at created'
  exact take_lt (count_take_lt_count_take earlier here) created created'

/-- The ports of every node are distinct, increasing and not forbidden exactly when the start
number, which the first rank takes, is not forbidden and no `int` overflows. -/
theorem portsAssigned_iff (nodeNames : List CString) (startNumber : Int) (forbidden : List Int) :
    PortsAssigned nodeNames startNumber forbidden ↔
      ∀ nodeName ∈ nodeNames, startNumber ∉ forbidden ∧
        mpiMaxProcessorName * nodeNames.length < 2 ^ 31 ∧
        nodeNames.count nodeName ≤ (free forbidden (2 ^ 31) startNumber).card + 1 := by
  constructor
  · intro assigned nodeName member
    obtain ⟨rank, here, last⟩ := exists_last_rank member
    have some_rank : 0 < nodeNames.length := List.length_pos_of_mem member
    obtain ⟨port, created, allowed⟩ :=
      assigned.numbered rank (List.getElem?_eq_some_iff.mp here).1
    have fits := fits_of_createPortNumber created
    refine ⟨?_, fits, ?_⟩
    · obtain ⟨first, taken, good⟩ := assigned.numbered 0 some_rank
      rw [createPortNumber_eq fits (List.getElem?_eq_getElem some_rank)] at taken
      cases taken
      exact good
    · rw [createPortNumber_eq fits here] at created
      have enough := take_isSome_iff.mp (Option.isSome_of_eq_some created)
      omega
  · intro right
    constructor
    · intro rank known
      have here := List.getElem?_eq_getElem known
      obtain ⟨good, fits, enough⟩ := right _ (List.getElem_mem known)
      have place := count_take_lt here
      have some_port : (take forbidden (2 ^ 31) startNumber
          ((nodeNames.take rank).count nodeNames[rank])).isSome = true :=
        take_isSome_iff.mpr (by omega)
      obtain ⟨port, taken⟩ := Option.isSome_iff_exists.mp some_port
      exact ⟨port, by rw [createPortNumber_eq fits here, taken], take_allowed good taken⟩
    · exact fun rank rank' port port' earlier same created created' =>
        createPortNumber_increasing earlier same created created'

/-- The node "a". -/
def nodeA : CString := ⟨[97], by decide⟩

/-- The first rank of a node started with `--data_port 2003`. -/
theorem not_portsAssigned_2003 :
    ¬ PortsAssigned [nodeA] 2003 (serverForbidden 5555 5556 5554) := by
  intro assigned
  obtain ⟨port, created, allowed⟩ := assigned.numbered 0 (by decide)
  rw [createPortNumber_eq (by decide) rfl] at created
  cases created
  exact allowed (by decide)

end Ports

end Melissa
