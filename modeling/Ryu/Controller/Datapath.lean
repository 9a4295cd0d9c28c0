import Mathlib.Data.Finset.Max
import Ryu.Lib.Codec
import Ryu.Lib.Dict
import Ryu.Lib.Numeral

/-! # Datapaths

What the handlers of `ofp_handler` read and write of `Datapath`, and the OpenFlow messages
they send. A message is serialized when it is sent, under the version the datapath has then;
its length is written into sixteen bits.
-/

namespace Ryu.Controller

/-- The dispatchers of `handler`. -/
inductive Dispatcher | handshake | config | main | dead
  deriving DecidableEq, Repr

/-- The keys of `ofproto_protocol._versions`. -/
def ofpVersions : Finset ℕ := {1, 3, 4, 5, 6}

/-- `ofproto_protocol._supported_versions`: `set_app_supported_versions` narrows it and
asserts that something is left. -/
structure SupportedVersions where
  versions : Finset ℕ
  nonempty : versions.Nonempty
  known : versions ⊆ ofpVersions

/-- `max(supported_ofp_version)`. -/
def SupportedVersions.max (S : SupportedVersions) : ℕ := S.versions.max' S.nonempty

/-- `max` of a set that may be empty. -/
def maxOf (s : Finset ℕ) : Except PyError ℕ :=
  if h : s.Nonempty then .ok (s.max' h) else .error (.valueError "max() arg is an empty sequence")

/-- An entry of `Datapath.ports`. -/
structure OFPPort where
  portNo : ℕ
  hwAddr : ℕ
  name : List UInt8
  config : ℕ
  state : ℕ
  deriving DecidableEq, Repr

inductive OFPMessage
  | hello
  | errorMsg (type code : ℕ) (data : Text)
  | featuresRequest
  | portDescStatsRequest (flags : ℕ)
  deriving DecidableEq, Repr

/-- The octets `serialize` writes. Every text sent is ASCII. -/
def OFPMessage.length : OFPMessage → ℕ
  | .hello => 8
  | .errorMsg _ _ data => 12 + data.length
  | .featuresRequest => 8
  | .portDescStatsRequest _ => 16

/-- An entry of `send_q`, with the version in its header. -/
structure Outgoing where
  version : ℕ
  msg : OFPMessage
  closeSocket : Bool
  deriving DecidableEq, Repr

/-- `ofproto` is the `OFP_VERSION` of the module the datapath speaks by. The attribute `ports`
is not there before the features reply, and `send_q` is `None` once the send loop has ended. -/
structure Datapath where
  ofproto : ℕ
  state : Dispatcher
  id : Option ℕ
  ports : Option (Dict ℕ OFPPort)
  sendQ : Option (List Outgoing)

/-- `Datapath.send` waits while the queue is full; it does not fail. -/
def Datapath.send (dp : Datapath) (o : Outgoing) : Datapath :=
  { dp with sendQ := dp.sendQ.map (· ++ [o]) }

/-- `Datapath.send_msg`. -/
def Datapath.sendMsg (dp : Datapath) (msg : OFPMessage) (closeSocket : Bool) :
    Except PyError Datapath :=
  if msg.length < 2 ^ 16 then .ok (dp.send ⟨dp.ofproto, msg, closeSocket⟩)
  else .error structError

/-- `Datapath._send_loop` over a queue: what goes out, and whether the loop ends, which
closes the connection for writing. -/
def sendLoop : List Outgoing → List Outgoing × Bool
  | [] => ([], false)
  | o :: q => if o.closeSocket then ([o], true) else ((sendLoop q).1.cons o, (sendLoop q).2)

/-- `ProtocolDesc.set_version`. -/
def Datapath.setVersion (S : SupportedVersions) (dp : Datapath) (version : ℕ) :
    Except PyError Datapath :=
  if version ∈ S.versions then .ok { dp with ofproto := version } else .error .assertionError

/-- A datapath before its first hello: `Datapath.__init__`, and the messages queued since. -/
def Datapath.inHandshake (S : SupportedVersions) (queued : List OFPMessage) : Datapath where
  ofproto := S.max
  state := .handshake
  id := none
  ports := none
  sendQ := some (queued.map (⟨S.max, ·, false⟩))

variable {S : SupportedVersions} {s : Finset ℕ} {dp : Datapath} {msg : OFPMessage} {b : Bool}

theorem SupportedVersions.max_mem (S : SupportedVersions) : S.max ∈ S.versions :=
  S.versions.max'_mem S.nonempty

theorem SupportedVersions.le_max {v : ℕ} (h : v ∈ S.versions) : v ≤ S.max :=
  S.versions.le_max' v h

theorem SupportedVersions.le_six {v : ℕ} (h : v ∈ S.versions) : v ≤ 6 := by
  have hv := S.known h
  simp only [ofpVersions, Finset.mem_insert, Finset.mem_singleton] at hv
  omega

theorem maxOf_eq_ok {m : ℕ} : maxOf s = .ok m ↔ m ∈ s ∧ ∀ v ∈ s, v ≤ m := by
  unfold maxOf
  split
  · next h =>
    rw [Except.ok.injEq]
    constructor
    · rintro rfl
      exact ⟨s.max'_mem h, s.le_max'⟩
    · rintro ⟨hm, hle⟩
      exact le_antisymm (hle _ (s.max'_mem h)) (s.le_max' m hm)
  · next h =>
    constructor
    · intro h0
      cases h0
    · intro h0
      exact absurd ⟨m, h0.1⟩ h

theorem exists_maxOf (h : s.Nonempty) : ∃ m, maxOf s = .ok m := ⟨s.max' h, dif_pos h⟩

theorem sendMsg_of_lt (h : msg.length < 2 ^ 16) :
    dp.sendMsg msg b = .ok (dp.send ⟨dp.ofproto, msg, b⟩) := if_pos h

theorem sendMsg_of_le (h : 2 ^ 16 ≤ msg.length) : dp.sendMsg msg b = .error structError :=
  if_neg (Nat.not_lt.mpr h)

/-- An entry that closes ends the loop, when none before it does. -/
theorem sendLoop_append {q : List Outgoing} {o : Outgoing} (hq : ∀ x ∈ q, x.closeSocket = false)
    (ho : o.closeSocket = true) (q' : List Outgoing) :
    sendLoop (q ++ o :: q') = (q ++ [o], true) := by
  induction q with
  | nil => simp [sendLoop, ho]
  | cons x q ih =>
    have hx := hq x List.mem_cons_self
    have ih := ih fun y hy => hq y (List.mem_cons_of_mem x hy)
    simp [sendLoop, hx, ih]

end Ryu.Controller
