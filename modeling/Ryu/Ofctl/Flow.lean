import Ryu.Ofctl.Match

/-! # Flow entries

`ofctl` turns a flow dictionary into a flow modification, which the switch applies to its
tables, and an installed flow back into texts. An added flow takes the place of the flow
of its table with the same priority and match; a strict deletion removes that flow.
-/

namespace Ryu

open Numeral

/-- The actions of an instruction; `other` stands for those that are only written back. -/
inductive OfAction
  | setField (field : String) (value : ℕ)
  | setQueue (queueId : ℕ)
  | other (text : Text)
  deriving DecidableEq, Repr

inductive Instruction
  | gotoTable (tableId : ℕ)
  | meter (meterId : ℕ)
  | applyActions (actions : List OfAction)
  | writeActions (actions : List OfAction)
  | clearActions
  | writeMetadata (text : Text)
  deriving DecidableEq, Repr

structure Flow where
  cookie : ℕ
  tableId : ℕ
  priority : ℕ
  ofMatch : OFPMatch
  instructions : List Instruction
  deriving DecidableEq

/-- The action dictionaries of a QoS rule. -/
inductive ActionDict
  | setField (field : String) (value : ℤ)
  | meter (meterId : Value)
  | setQueue (queueId : Value)
  | gotoTable (tableId : ℕ)
  deriving DecidableEq, Repr

/-- `OFPM_`. -/
def ofpm : Reserved :=
  [("MAX".toList, 0xffff0000), ("SLOWPATH".toList, 0xfffffffd),
    ("CONTROLLER".toList, 0xfffffffe), ("ALL".toList, 0xffffffff)]

/-- `OFPQ_`. -/
def ofpq : Reserved := [("ALL".toList, 0xffffffff)]

/-- `struct.pack` of an unsigned integer of a number of bytes. -/
def pack (size : ℕ) : Value → Except PyError ℕ
  | .int n =>
    if 0 ≤ n ∧ n < (256 ^ size : ℕ) then .ok n.toNat
    else .error (.other "struct.error")
  | .str _ => .error (.other "struct.error")

theorem pack_eq_ok {size n : ℕ} {i : ℤ} (h : pack size (.int i) = .ok n) :
    i = n ∧ n < 256 ^ size := by
  simp only [pack] at h
  split at h
  · next hi =>
    cases h
    have hn : ((i.toNat : ℕ) : ℤ) = i := Int.toNat_of_nonneg hi.1
    refine ⟨hn.symm, ?_⟩
    rw [← Int.ofNat_lt, hn]
    exact hi.2
  · cases h

theorem pack_natCast {size n : ℕ} (h : n < 256 ^ size) : pack size (.int n) = .ok n := by
  have hlt : (n : ℤ) < (256 ^ size : ℕ) := Int.ofNat_lt.mpr h
  rw [pack, if_pos ⟨Int.natCast_nonneg n, hlt⟩, Int.toNat_natCast]

/-- The loop of `to_actions`, and the serialization of what it makes: the instructions in their
order, and the actions to apply. -/
def toInstructions : List ActionDict → Except PyError (List Instruction × List OfAction)
  | [] => .ok ([], [])
  | a :: as =>
    match toInstructions as with
    | .error e => .error e
    | .ok (inst, actions) =>
      match a with
      | .setField field value => .ok (inst, .setField field (value % 256).toNat :: actions)
      | .gotoTable tableId => .ok (.gotoTable tableId :: inst, actions)
      | .meter meterId =>
        (pack 4 (reservedNumFromUser "OFPM_".toList ofpm meterId)).map fun n =>
          (.meter n :: inst, actions)
      | .setQueue queueId =>
        (pack 4 (reservedNumFromUser "OFPQ_".toList ofpq queueId)).map fun n =>
          (inst, .setQueue n :: actions)

/-- `to_actions`: what is applied goes last. -/
def toActions (as : List ActionDict) : Except PyError (List Instruction) :=
  (toInstructions as).map fun r => if r.2 = [] then r.1 else r.1 ++ [.applyActions r.2]

variable (ac : AddrConv)

/-- `mod_flow_entry` of a flow dictionary without a table: the flow that is sent. -/
def modFlowEntry (cookie : ℕ) (priority : ℤ) (ofMatch : Dict RestKey Value)
    (actions : List ActionDict) : Except PyError Flow :=
  match toMatch ac ofMatch with
  | .error e => .error e
  | .ok m =>
    match toActions actions with
    | .error e => .error e
    | .ok inst =>
      match pack 2 (.int priority) with
      | .error e => .error e
      | .ok priority => .ok ⟨cookie, 0, priority, m, inst⟩

/-- The flows name the same entry. -/
def Flow.Overlaps (f g : Flow) : Prop :=
  f.tableId = g.tableId ∧ f.priority = g.priority ∧ f.ofMatch = g.ofMatch

instance (f g : Flow) : Decidable (f.Overlaps g) := inferInstanceAs (Decidable (_ ∧ _))

/-- `OFPFC_ADD`. -/
def addFlow (table : List Flow) (f : Flow) : List Flow :=
  table.filter (fun g => ¬ f.Overlaps g) ++ [f]

/-- `OFPFC_DELETE_STRICT`. -/
def deleteStrict (table : List Flow) (f : Flow) : List Flow :=
  table.filter fun g => ¬ f.Overlaps g

/-- An action text, or the dictionary `WRITE_ACTIONS` is written as. -/
inductive ActionStr
  | text (s : Text)
  | writeActions
  deriving DecidableEq, Repr

/-- `_reserved_num_to_user` in an action text. -/
def reservedText (names : Reserved) (n : ℕ) : Text := (reservedNumToUser names n).toStr

/-- `action_to_str`. -/
def actionToStr : OfAction → Text
  | .setField field value =>
    "SET_FIELD: \x7b".toList ++ field.toList ++ ':' :: dec value ++ "\x7d".toList
  | .setQueue queueId => "SET_QUEUE:".toList ++ reservedText ofpq queueId
  | .other text => text

/-- `OFPTT_`. -/
def ofptt : Reserved := [("MAX".toList, 0xfe), ("ALL".toList, 0xff)]

/-- `actions_to_str` of one instruction. -/
def instructionToStr : Instruction → List ActionStr
  | .applyActions actions => actions.map fun a => .text (actionToStr a)
  | .writeActions actions => if actions = [] then [] else [.writeActions]
  | .clearActions => [.text "CLEAR_ACTIONS".toList]
  | .gotoTable tableId => [.text ("GOTO_TABLE:".toList ++ reservedText ofptt tableId)]
  | .writeMetadata text => [.text text]
  | .meter meterId => [.text ("METER:".toList ++ reservedText ofpm meterId)]

/-- `actions_to_str`. -/
def actionsToStr (instructions : List Instruction) : List ActionStr :=
  instructions.flatMap instructionToStr

/-- An entry of `get_flow_stats`. -/
structure FlowStat where
  cookie : ℕ
  tableId : Value
  priority : ℕ
  ofMatch : Dict RestKey Value
  actions : List ActionStr
  deriving DecidableEq, Repr

def Flow.stat (f : Flow) : FlowStat :=
  ⟨f.cookie, reservedNumToUser ofptt f.tableId, f.priority, matchToStr ac f.ofMatch,
    actionsToStr f.instructions⟩

/-- `get_flow_stats`. -/
def getFlowStats (table : List Flow) : List FlowStat := table.map (Flow.stat ac)

end Ryu
