import Mathlib.Data.List.Induction
import Ryu.Lib.Dict
import Ryu.Lib.Numeral
import Ryu.Lib.Struct

/-! # The learning switch

The application notes for each switch on which port an address was seen, and sends a packet to the
port of its destination, or to all ports. A destination that is known gets a flow as well. A flow
stays as it was installed, wherever its destination is seen from then on.
-/

namespace Ryu.SimpleSwitch13

def ofppFlood : ℕ := 0xfffffffb

def ofpNoBuffer : ℕ := 0xffffffff

def ethTypeLldp : ℕ := 0x88cc

/-- A MAC address, as its octets. -/
abbrev Mac := List UInt8

structure Ethernet where
  dst : Mac
  src : Mac
  ethertype : ℕ
  deriving DecidableEq, Repr

/-- What the handler reads of a packet-in. -/
structure PacketIn where
  dpid : ℕ
  bufferId : ℕ
  inPort : ℕ
  data : List UInt8
  deriving DecidableEq, Repr

structure FlowMatch where
  inPort : ℕ
  ethDst : Mac
  ethSrc : Mac
  deriving DecidableEq, Repr

/-- The messages to the switches. Each has the output to a port as its only action. -/
inductive Msg
  | flowMod (dpid bufferId priority : ℕ) (m : FlowMatch) (outPort : ℕ)
  | packetOut (dpid bufferId inPort outPort : ℕ) (data : Option (List UInt8))
  deriving DecidableEq, Repr

/-- `mac_to_port`. -/
abbrev MacToPort := Dict Text (Dict Mac ℕ)

/-- What the parsers behind the Ethernet header raise, given the type and the payload. -/
abbrev PayloadParser := ℕ → List UInt8 → Except PyError Unit

variable (payload : PayloadParser)

/-- `Packet(data).get_protocols(ethernet.ethernet)[0]`. Data that are all zeros are not parsed,
and those that are too short have no header. -/
def firstEthernet (data : List UInt8) : Except PyError Ethernet :=
  if data.all fun x => x.toNat = 0 then .error (.other "IndexError")
  else
    match Format.unpackFrom [.str 6, .str 6, .num 2] data with
    | .error _ => .error (.other "IndexError")
    | .ok (dst, src, ethertype, _) => do
      payload ethertype (data.drop 14)
      .ok ⟨dst, src, ethertype⟩

/-- `format(datapath.id, "d").zfill(16)`. -/
def dpidKey (dpid : ℕ) : Text := Numeral.pad 16 (Numeral.dec dpid)

/-- A buffer id is taken for none if it is zero. -/
def addFlow (dpid priority : ℕ) (m : FlowMatch) (outPort : ℕ) (bufferId : Option ℕ) : Msg :=
  match bufferId with
  | some (b + 1) => .flowMod dpid (b + 1) priority m outPort
  | _ => .flowMod dpid ofpNoBuffer priority m outPort

/-- `self.mac_to_port[dpid][src] = in_port`. -/
def learn (s : MacToPort) (p : PacketIn) (eth : Ethernet) : MacToPort :=
  s.set (dpidKey p.dpid) (((s.get? (dpidKey p.dpid)).getD Dict.empty).set eth.src p.inPort)

/-- `self.mac_to_port[dpid]`, the port of an address. -/
def noted (s : MacToPort) (dpid : ℕ) (mac : Mac) : Option ℕ :=
  (s.get? (dpidKey dpid)).bind (Dict.get? · mac)

/-- The messages for a packet-in, after its source was noted. -/
def forward (s : MacToPort) (p : PacketIn) (eth : Ethernet) : List Msg :=
  let outPort := (noted s p.dpid eth.dst).getD ofppFlood
  let m : FlowMatch := ⟨p.inPort, eth.dst, eth.src⟩
  let data := if p.bufferId = ofpNoBuffer then some p.data else none
  let out := Msg.packetOut p.dpid p.bufferId p.inPort outPort data
  if outPort ≠ ofppFlood then
    if p.bufferId ≠ ofpNoBuffer then [addFlow p.dpid 1 m outPort (some p.bufferId)]
    else [addFlow p.dpid 1 m outPort none, out]
  else [out]

/-- `_packet_in_handler`: the addresses that are noted then, and the messages sent. -/
def packetInHandler (s : MacToPort) (p : PacketIn) : Except PyError (MacToPort × List Msg) := do
  let eth ← firstEthernet payload p.data
  if eth.ethertype = ethTypeLldp then .ok (s, [])
  else
    let s := learn s p eth
    .ok (s, forward s p eth)

/-! ## Runs -/

/-- The application, and the flows it has installed on the switches. -/
structure Net where
  macToPort : MacToPort
  flows : Dict (ℕ × FlowMatch) ℕ

/-- `OFPFC_ADD`: a flow with the same match is replaced. -/
def install (flows : Dict (ℕ × FlowMatch) ℕ) : Msg → Dict (ℕ × FlowMatch) ℕ
  | .flowMod dpid _ _ m outPort => flows.set (dpid, m) outPort
  | .packetOut .. => flows

def initial : Net := ⟨Dict.empty, Dict.empty⟩

/-- A handler that raises changes nothing and sends nothing. -/
def handle (s : MacToPort) (p : PacketIn) : MacToPort × List Msg :=
  match packetInHandler payload s p with
  | .ok x => x
  | .error _ => (s, [])

def step (net : Net) (p : PacketIn) : Net :=
  let (s, msgs) := handle payload net.macToPort p
  ⟨s, msgs.foldl install net.flows⟩

def after (h : List PacketIn) : Net := h.foldl (step payload) initial

/-- The messages sent for a packet-in that comes after others. -/
def sent (h : List PacketIn) (p : PacketIn) : List Msg :=
  (handle payload (after payload h).macToPort p).2

/-! ## What was seen -/

/-- The port on which a packet-in shows an address on a switch. -/
def sees (dpid : ℕ) (mac : Mac) (p : PacketIn) : Option ℕ :=
  match firstEthernet payload p.data with
  | .ok eth =>
    if eth.ethertype ≠ ethTypeLldp ∧ p.dpid = dpid ∧ eth.src = mac then some p.inPort else none
  | .error _ => none

/-- The port on which an address was seen last on a switch. -/
def lastSeen (h : List PacketIn) (dpid : ℕ) (mac : Mac) : Option ℕ :=
  h.reverse.findSome? (sees payload dpid mac)

namespace Msg

def outPort : Msg → ℕ
  | flowMod _ _ _ _ outPort => outPort
  | packetOut _ _ _ outPort _ => outPort

/-- The packet of a packet-in is released: from its buffer, or with its data. -/
def releases (p : PacketIn) : Msg → Bool
  | flowMod dpid bufferId _ _ _ => dpid = p.dpid ∧ bufferId = p.bufferId ∧ bufferId ≠ ofpNoBuffer
  | packetOut dpid bufferId _ _ data => dpid = p.dpid ∧ bufferId = p.bufferId ∧
      (bufferId = ofpNoBuffer → data = some p.data)

end Msg

variable {payload} {h : List PacketIn} {p : PacketIn} {dpid : ℕ} {mac : Mac} {eth : Ethernet}

theorem dpidKey_inj {a b : ℕ} : dpidKey a = dpidKey b ↔ a = b := by
  refine ⟨fun hab => ?_, congrArg dpidKey⟩
  have hread : ∀ n, Numeral.ofDigits 10 0 (dpidKey n) = some n := by
    intro n
    rw [dpidKey, Numeral.ofDigits_pad (by decide)]
    exact Numeral.ofDigits_toDigits (by decide) (by decide) n
  have hsome := hread a
  rw [hab, hread b] at hsome
  exact (Option.some.inj hsome).symm

theorem lastSeen_append (h : List PacketIn) (p : PacketIn) (dpid : ℕ) (mac : Mac) :
    lastSeen payload (h ++ [p]) dpid mac =
      (sees payload dpid mac p).or (lastSeen payload h dpid mac) := by
  rw [lastSeen, List.reverse_append, List.reverse_singleton, List.singleton_append,
    List.findSome?_cons]
  cases sees payload dpid mac p <;> rfl

theorem after_append (h : List PacketIn) (p : PacketIn) :
    after payload (h ++ [p]) = step payload (after payload h) p := by
  rw [after, List.foldl_append]
  rfl

/-- The port to which a packet to an address goes. -/
def portTo (payload : PayloadParser) (h : List PacketIn) (dpid : ℕ) (mac : Mac) : ℕ :=
  (lastSeen payload h dpid mac).getD ofppFlood

theorem noted_learn (s : MacToPort) (p : PacketIn) (eth : Ethernet) (dpid : ℕ) (mac : Mac) :
    noted (learn s p eth) dpid mac =
      (if p.dpid = dpid ∧ eth.src = mac then some p.inPort else none).or (noted s dpid mac) := by
  rw [noted, noted, learn, Dict.get?_set]
  simp only [dpidKey_inj]
  by_cases hdpid : p.dpid = dpid
  · subst hdpid
    by_cases hsrc : eth.src = mac
    · simp [hsrc]
    · cases s.get? (dpidKey p.dpid) <;> simp [hsrc, Dict.get?_set]
  · simp [hdpid]

theorem handle_error {e : PyError} (he : firstEthernet payload p.data = .error e) (s : MacToPort) :
    handle payload s p = (s, []) := by
  simp [handle, packetInHandler, he, bind, Except.bind]

theorem handle_lldp (he : firstEthernet payload p.data = .ok eth)
    (hl : eth.ethertype = ethTypeLldp) (s : MacToPort) : handle payload s p = (s, []) := by
  simp [handle, packetInHandler, he, hl, bind, Except.bind]

theorem handle_frame (he : firstEthernet payload p.data = .ok eth)
    (hl : eth.ethertype ≠ ethTypeLldp) (s : MacToPort) :
    handle payload s p = (learn s p eth, forward (learn s p eth) p eth) := by
  simp [handle, packetInHandler, he, hl, bind, Except.bind]

theorem noted_handle (s : MacToPort) (p : PacketIn) (dpid : ℕ) (mac : Mac) :
    noted (handle payload s p).1 dpid mac = (sees payload dpid mac p).or (noted s dpid mac) := by
  rw [sees]
  cases he : firstEthernet payload p.data with
  | error e => rw [handle_error he, Option.none_or]
  | ok eth =>
    by_cases hl : eth.ethertype = ethTypeLldp
    · rw [handle_lldp he hl]
      simp [hl]
    · rw [handle_frame he hl, noted_learn]
      simp [hl]

/-- What is noted is where an address was seen last. -/
theorem noted_after (payload : PayloadParser) (h : List PacketIn) (dpid : ℕ) (mac : Mac) :
    noted (after payload h).macToPort dpid mac = lastSeen payload h dpid mac := by
  induction h using List.reverseRecOn with
  | nil => rfl
  | append_singleton h p ih =>
    rw [lastSeen_append, after_append, ← ih]
    exact noted_handle _ p dpid mac

/-- The messages for a packet-in go to where its destination was seen last. -/
theorem sent_frame (he : firstEthernet payload p.data = .ok eth)
    (hl : eth.ethertype ≠ ethTypeLldp) : ∃ s, sent payload h p = forward s p eth ∧
      (noted s p.dpid eth.dst).getD ofppFlood = portTo payload (h ++ [p]) p.dpid eth.dst := by
  refine ⟨learn (after payload h).macToPort p eth, ?_, ?_⟩
  · rw [sent, handle_frame he hl]
  · have hnoted := noted_after payload (h ++ [p]) p.dpid eth.dst
    rw [after_append, step, handle_frame he hl] at hnoted
    rw [portTo, ← hnoted]

/-- A packet is released exactly once, unless it is in buffer zero and gets a flow. -/
theorem forward_releases {s : MacToPort} {port : ℕ}
    (hport : (noted s p.dpid eth.dst).getD ofppFlood = port)
    (hbuf : p.bufferId = 0 → port = ofppFlood) :
    ∃ m, (forward s p eth).filter (Msg.releases p) = [m] ∧ m.outPort = port := by
  unfold forward
  rw [hport]
  by_cases hflood : port = ofppFlood
  · refine ⟨.packetOut p.dpid p.bufferId p.inPort port
      (if p.bufferId = ofpNoBuffer then some p.data else none), ?_, rfl⟩
    simp [hflood, Msg.releases]
  · by_cases hno : p.bufferId = ofpNoBuffer
    · refine ⟨.packetOut p.dpid p.bufferId p.inPort port (some p.data), ?_, rfl⟩
      simp [hflood, hno, Msg.releases, addFlow]
    · obtain ⟨b, hb⟩ := Nat.exists_eq_succ_of_ne_zero (fun h0 => hflood (hbuf h0))
      refine ⟨.flowMod p.dpid p.bufferId 1 ⟨p.inPort, eth.dst, eth.src⟩ port, ?_, rfl⟩
      rw [hb] at hno ⊢
      simp [hflood, hno, hb, Msg.releases, addFlow]

/-! ## Flows -/

variable {m : FlowMatch} {port : ℕ}

/-- A packet-in that comes after others makes the application install a flow. -/
def Installs (payload : PayloadParser) (h : List PacketIn) (p : PacketIn) (dpid : ℕ)
    (m : FlowMatch) (port : ℕ) : Prop :=
  ∃ bufferId priority, Msg.flowMod dpid bufferId priority m port ∈ sent payload h p

/-- A flow goes to where its destination is noted. -/
theorem flowMod_mem_forward {s : MacToPort} {b prio : ℕ}
    (hmem : Msg.flowMod dpid b prio m port ∈ forward s p eth) :
    dpid = p.dpid ∧ m.ethDst = eth.dst ∧ noted s p.dpid eth.dst = some port := by
  have hadd : ∀ {priority outPort bufferId m'},
      Msg.flowMod dpid b prio m port = addFlow p.dpid priority m' outPort bufferId →
        dpid = p.dpid ∧ m = m' ∧ port = outPort := by
    intro priority outPort bufferId m' heq
    unfold addFlow at heq
    split at heq <;> cases heq <;> exact ⟨rfl, rfl, rfl⟩
  unfold forward at hmem
  dsimp only at hmem
  split at hmem
  · next hflood =>
    have hsome : noted s p.dpid eth.dst = some ((noted s p.dpid eth.dst).getD ofppFlood) := by
      cases hn : noted s p.dpid eth.dst with
      | none =>
        rw [hn] at hflood
        exact absurd rfl hflood
      | some port => rfl
    have hmod : ∃ bufferId, Msg.flowMod dpid b prio m port =
        addFlow p.dpid 1 ⟨p.inPort, eth.dst, eth.src⟩
          ((noted s p.dpid eth.dst).getD ofppFlood) bufferId := by
      split at hmem
      · exact ⟨_, List.mem_singleton.mp hmem⟩
      · rcases List.mem_cons.mp hmem with heq | hmem
        · exact ⟨_, heq⟩
        · cases List.mem_singleton.mp hmem
    obtain ⟨_, heq⟩ := hmod
    obtain ⟨rfl, rfl, rfl⟩ := hadd heq
    exact ⟨rfl, rfl, hsome⟩
  · cases List.mem_singleton.mp hmem

theorem Installs.lastSeen (hi : Installs payload h p dpid m port) :
    lastSeen payload (h ++ [p]) dpid m.ethDst = some port := by
  obtain ⟨b, prio, hmem⟩ := hi
  unfold sent at hmem
  cases he : firstEthernet payload p.data with
  | error e =>
    rw [handle_error he] at hmem
    cases hmem
  | ok eth =>
    by_cases hl : eth.ethertype = ethTypeLldp
    · rw [handle_lldp he hl] at hmem
      cases hmem
    · have hnoted := noted_after payload (h ++ [p]) dpid m.ethDst
      rw [after_append, step, handle_frame he hl] at hnoted
      rw [handle_frame he hl] at hmem
      obtain ⟨rfl, hdst, hport⟩ := flowMod_mem_forward hmem
      rw [← hnoted, hdst, hport]

/-- A flow is the one that was there, or one of those that are installed. -/
theorem get?_foldl_install {msgs : List Msg} {flows : Dict (ℕ × FlowMatch) ℕ}
    (hget : (msgs.foldl install flows).get? (dpid, m) = some port) :
    (∃ b prio, Msg.flowMod dpid b prio m port ∈ msgs) ∨
      flows.get? (dpid, m) = some port ∧ ∀ b prio port', Msg.flowMod dpid b prio m port' ∉ msgs := by
  induction msgs using List.reverseRecOn with
  | nil => exact .inr ⟨hget, fun _ _ _ => List.not_mem_nil⟩
  | append_singleton msgs msg ih =>
    rw [List.foldl_append, List.foldl_cons, List.foldl_nil] at hget
    have hearlier : (∀ b prio port', msg ≠ Msg.flowMod dpid b prio m port') →
        (msgs.foldl install flows).get? (dpid, m) = some port →
          (∃ b prio, Msg.flowMod dpid b prio m port ∈ msgs ++ [msg]) ∨
            flows.get? (dpid, m) = some port ∧
              ∀ b prio port', Msg.flowMod dpid b prio m port' ∉ msgs ++ [msg] := by
      intro hne hget
      refine (ih hget).imp (fun ⟨b, prio, hmem⟩ => ⟨b, prio, List.mem_append_left _ hmem⟩)
        fun ⟨hflows, hnone⟩ => ⟨hflows, fun b prio port' hmem => ?_⟩
      rcases List.mem_append.mp hmem with hmem | hmem
      · exact hnone b prio port' hmem
      · exact hne b prio port' (List.mem_singleton.mp hmem).symm
    cases msg with
    | packetOut dpid' b inPort outPort data =>
      exact hearlier (fun _ _ _ heq => by cases heq) hget
    | flowMod dpid' b prio m' outPort =>
      rw [install, Dict.get?_set] at hget
      split at hget
      · next hkey =>
        obtain ⟨rfl, rfl⟩ := Prod.mk.inj hkey
        obtain rfl := Option.some.inj hget
        exact .inl ⟨b, prio, List.mem_append_right _ List.mem_cons_self⟩
      · next hkey =>
        refine hearlier (fun b' prio' port' heq => ?_) hget
        cases heq
        exact hkey rfl

/-- A flow that is there was installed, and no flow with its match was installed since. -/
theorem installed_of_flow (hflow : (after payload h).flows.get? (dpid, m) = some port) :
    ∃ h' p rest, h = h' ++ p :: rest ∧ Installs payload h' p dpid m port ∧
      ∀ r₁ q r₂ port', rest = r₁ ++ q :: r₂ →
        ¬ Installs payload (h' ++ p :: r₁) q dpid m port' := by
  induction h using List.reverseRecOn with
  | nil => cases hflow
  | append_singleton h q ih =>
    rw [after_append] at hflow
    rcases get?_foldl_install hflow with hmem | ⟨hflow, hnone⟩
    · refine ⟨h, q, [], rfl, hmem, fun r₁ q' r₂ port' heq => ?_⟩
      cases r₁ <;> cases heq
    · obtain ⟨h', p, rest, rfl, hinst, hlater⟩ := ih hflow
      refine ⟨h', p, rest ++ [q], by simp, hinst, fun r₁ q' r₂ port' heq => ?_⟩
      cases r₂ using List.reverseRecOn with
      | nil =>
        obtain ⟨rfl, hq⟩ := List.append_inj' heq rfl
        obtain rfl := List.singleton_inj.mp hq
        rintro ⟨b, prio, hmem⟩
        exact hnone b prio port' hmem
      | append_singleton r₂ q'' =>
        have hsplit : rest ++ [q] = (r₁ ++ q' :: r₂) ++ [q''] := by simpa using heq
        exact hlater r₁ q' r₂ port' (List.append_inj' hsplit rfl).1

/-- An address that has been seen on no other port since was seen last where it was then. -/
theorem lastSeen_of_unmoved {rest : List PacketIn} {h' : List PacketIn}
    (hseen : lastSeen payload h' dpid mac = some port)
    (hrest : ∀ q ∈ rest, ∀ port', sees payload dpid mac q = some port' → port' = port) :
    lastSeen payload (h' ++ rest) dpid mac = some port := by
  induction rest using List.reverseRecOn with
  | nil => rwa [List.append_nil]
  | append_singleton rest q ih =>
    rw [← List.append_assoc, lastSeen_append,
      ih fun q' hq' => hrest q' (List.mem_append_left _ hq')]
    cases hq : sees payload dpid mac q with
    | none => rfl
    | some port' =>
      rw [hrest q (List.mem_append_right _ List.mem_cons_self) port' hq]
      rfl

/-! ## The main results -/

/-- The packet of a packet-in is released by exactly one message, to where its destination was
seen last. -/
def Released (payload : PayloadParser) (h : List PacketIn) (p : PacketIn) (eth : Ethernet) : Prop :=
  ∃ m, (sent payload h p).filter (Msg.releases p) = [m] ∧
    m.outPort = portTo payload (h ++ [p]) p.dpid eth.dst

/-- Every packet but one with a flow and in buffer zero is released once, to where its destination
was seen last. A flow goes to where its destination was seen last when the flow was last installed,
and still is if the destination was seen on no other port since. -/
theorem released_and_installed (payload : PayloadParser) (h : List PacketIn) :
    (∀ p eth, firstEthernet payload p.data = .ok eth → eth.ethertype ≠ ethTypeLldp →
      (p.bufferId = 0 → portTo payload (h ++ [p]) p.dpid eth.dst = ofppFlood) →
        Released payload h p eth) ∧
    ∀ dpid m port, (after payload h).flows.get? (dpid, m) = some port →
      ∃ h' p rest, h = h' ++ p :: rest ∧ Installs payload h' p dpid m port ∧
        (∀ r₁ q r₂ port', rest = r₁ ++ q :: r₂ →
          ¬ Installs payload (h' ++ p :: r₁) q dpid m port') ∧
        lastSeen payload (h' ++ [p]) dpid m.ethDst = some port ∧
        ((∀ q ∈ rest, ∀ port', sees payload dpid m.ethDst q = some port' → port' = port) →
          lastSeen payload h dpid m.ethDst = some port) := by
  constructor
  · intro p eth he hl hbuf
    obtain ⟨s, hsent, hport⟩ := sent_frame (h := h) he hl
    rw [Released, hsent]
    exact forward_releases hport hbuf
  · intro dpid m port hflow
    obtain ⟨h', p, rest, rfl, hinst, hlater⟩ := installed_of_flow hflow
    refine ⟨h', p, rest, rfl, hinst, hlater, hinst.lastSeen, fun hrest => ?_⟩
    have hseen := lastSeen_of_unmoved hinst.lastSeen hrest
    rwa [List.append_assoc] at hseen

/-- A frame of an address to another one. -/
def frame (dst src : UInt8) : List UInt8 :=
  [2, 0, 0, 0, 0, dst] ++ [2, 0, 0, 0, 0, src] ++ [0x08, 0x00]

/-- Two hosts, the first of which has a flow to the second. -/
def twoHosts : List PacketIn :=
  [⟨1, ofpNoBuffer, 2, frame 9 2⟩, ⟨1, ofpNoBuffer, 1, frame 2 1⟩]

theorem released_and_installed_twoHosts :
    Released (fun _ _ => .ok ()) twoHosts ⟨1, 7, 1, frame 2 1⟩ ⟨[2, 0, 0, 0, 0, 2],
      [2, 0, 0, 0, 0, 1], 0x0800⟩ :=
  (released_and_installed (fun _ _ => .ok ()) twoHosts).1 _ _ (by decide) (by decide) (by decide)

/-- A packet in buffer zero that gets a flow is not released. A flow to a host that has moved
goes to the port where the host was. -/
theorem unreleased_and_stale :
    ¬ Released (fun _ _ => .ok ()) twoHosts ⟨1, 0, 1, frame 2 1⟩ ⟨[2, 0, 0, 0, 0, 2],
      [2, 0, 0, 0, 0, 1], 0x0800⟩ ∧
    (after (fun _ _ => .ok ()) (twoHosts ++ [⟨1, ofpNoBuffer, 3, frame 9 2⟩])).flows.get?
        (1, ⟨1, [2, 0, 0, 0, 0, 2], [2, 0, 0, 0, 0, 1]⟩) = some 2 ∧
    lastSeen (fun _ _ => .ok ()) (twoHosts ++ [⟨1, ofpNoBuffer, 3, frame 9 2⟩]) 1
        [2, 0, 0, 0, 0, 2] = some 3 := by
  refine ⟨?_, by decide, by decide⟩
  rintro ⟨m, hm, -⟩
  have hnone : (sent (fun _ _ => .ok ()) twoHosts ⟨1, 0, 1, frame 2 1⟩).filter
      (Msg.releases ⟨1, 0, 1, frame 2 1⟩) = [] := by decide
  rw [hnone] at hm
  cases hm

end Ryu.SimpleSwitch13
