import ControlLogix.Client
import ControlLogix.Session
import ControlLogix.Tag

/-!
# The sketch `LanInventory`

The sketch dials one address after the other and asks every device that answers for its identity.  The globals of the
sketch are the fields of `LanInventory`, and a call of `loop()` is a step.  `Serial` is left out but for what
`printDevice()` prints, which is kept in `reports`; `dialled` is the history of the addresses given to
`TcpConnection::connect`.  `phaseStarted` is written and never read, and is left out.
-/

namespace ControlLogix

open Bytes

/-! ### Addresses -/

namespace IPAddress

/-- `ip[i]`: the octets of an address are the bytes of its `dword`. -/
def octet (ip : IPAddress) (i : Nat) : UInt8 := peek (putU32 ip) i

/-- `ip[i] = v`. -/
def setOctet (ip : IPAddress) (i : Nat) (v : UInt8) : IPAddress := getU32 ((putU32 ip).set i v)

def ofOctets (a b c d : UInt8) : IPAddress := getU32 [a, b, c, d]

/-- The address as a number: the first octet is the most significant one. -/
def host (ip : IPAddress) : Nat :=
  (ip.octet 0).toNat * 2 ^ 24 + (ip.octet 1).toNat * 2 ^ 16 + (ip.octet 2).toNat * 2 ^ 8 + (ip.octet 3).toNat

end IPAddress

/-- What the driver tells of an interface with a static configuration, and the gateway of the configuration. -/
structure Lan where
  localIP : IPAddress
  subnetMask : IPAddress
  gateway : IPAddress
  deriving DecidableEq, Repr

namespace Client

def localIP (c : Client) (lan : Lan) : IPAddress := if c.ready then lan.localIP else 0

def subnetMask (c : Client) (lan : Lan) : IPAddress := if c.ready then lan.subnetMask else 0

end Client

/-! ### The sketch -/

namespace LanInventory

def EIP_PORT : UInt16 := 44818

def SCAN_TIMEOUT_MS : UInt32 := 100

def SESSION_TIMEOUT_MS : UInt32 := 1000

def MESSAGE_TIMEOUT_MS : UInt32 := 1000

/-- "ControllerInfo.Mode". -/
def modeTag : List UInt8 :=
  [0x43, 0x6F, 0x6E, 0x74, 0x72, 0x6F, 0x6C, 0x6C, 0x65, 0x72, 0x49, 0x6E, 0x66, 0x6F, 0x2E, 0x4D, 0x6F, 0x64, 0x65]

structure Identity where
  vendor : UInt16 := 0
  deviceType : UInt16 := 0
  productCode : UInt16 := 0
  revMajor : UInt8 := 0
  revMinor : UInt8 := 0
  status : UInt16 := 0
  serial : UInt32 := 0
  productName : List UInt8 := List.replicate 64 0
  state : UInt8 := 0
  deriving DecidableEq, Repr

def kIdentityAttrs : List UInt8 :=
  [kIdentityVendorId, kIdentityDeviceType, kIdentityProductCode, kIdentityRevision, kIdentityStatus,
   kIdentitySerialNumber, kIdentityProductName, kIdentityState]

def kIdentityAttrCount : Nat := kIdentityAttrs.length

inductive Phase where
  | waitEthernet
  | scan
  | connect
  | register
  | query
  | close
  | done
  deriving DecidableEq, Repr

inductive RunSwitch where
  | mode (mode : Int32)
  | unavailable (resultCode : UInt8)
  deriving DecidableEq, Repr

/-- What `printDevice()` prints. -/
structure Report where
  ip : IPAddress
  id : Identity
  runSwitch : RunSwitch
  deriving DecidableEq, Repr

end LanInventory

open LanInventory (Identity Phase RunSwitch Report) in
structure LanInventory where
  eth : Client := {}
  tcp : TcpConnection := {}
  session : Session := {}
  msg : ExplicitMessage := {}
  tag : Tag := { data := .zero }
  phase : Phase := .waitEthernet
  network : IPAddress := 0
  broadcast : IPAddress := 0
  currentIp : IPAddress := 0
  found : Nat := 0
  queryIndex : Nat := 0
  stepStarted : Bool := false
  id : Identity := {}
  dialled : List IPAddress := []
  reports : List Report := []
  deriving DecidableEq, Repr

namespace LanInventory

/-- The loop of `nextHost()`, with `i` octets left. -/
def advance : Nat → IPAddress → Bool × IPAddress
  | 0, ip => (false, ip)
  | i + 1, ip =>
    if ip.octet i < 255 then (true, ip.setOctet i (ip.octet i + 1)) else advance i (ip.setOctet i 0)

def nextHost (ip : IPAddress) : Bool × IPAddress := advance 4 ip

/-- `began` and `configured` are the results of `ETH.begin` and `ETH.config`. -/
def setup (s : LanInventory) (began configured : Bool) : LanInventory :=
  let (st, eth) := s.eth.begin began configured
  { s with eth := eth, phase := if st = .error then .done else s.phase }

def startQuery (s : LanInventory) (now : UInt32) : LanInventory :=
  if s.queryIndex < kIdentityAttrCount then
    let attr := kIdentityAttrs.getD s.queryIndex 0
    let path := appendClass 1 ++ appendInstance 1
    let data := appendAttribute attr
    let (st, msg) := s.msg.send s.tcp s.session.handle Service.getAttributeSingle.code (some path) path.length
      (some data) data.length MESSAGE_TIMEOUT_MS now
    { s with msg := msg, stepStarted := st = .pending }
  else
    let (st, tag, msg) := s.tag.read s.msg s.tcp s.session.handle (some modeTag) 1 MESSAGE_TIMEOUT_MS now
    { s with tag := tag, msg := msg, stepStarted := st = .pending }

/-- The `switch` of `finishQuery()`. -/
def Identity.record (id : Identity) (attr : UInt8) (d : List UInt8) (n : Nat) : Identity :=
  if attr = kIdentityVendorId then (if 2 ≤ n then { id with vendor := getU16 d } else id)
  else if attr = kIdentityDeviceType then (if 2 ≤ n then { id with deviceType := getU16 d } else id)
  else if attr = kIdentityProductCode then (if 2 ≤ n then { id with productCode := getU16 d } else id)
  else if attr = kIdentityRevision then (if 2 ≤ n then { id with revMajor := peek d 0, revMinor := peek d 1 } else id)
  else if attr = kIdentityStatus then (if 2 ≤ n then { id with status := getU16 d } else id)
  else if attr = kIdentitySerialNumber then (if 4 ≤ n then { id with serial := getU32 d } else id)
  else if attr = kIdentityProductName then
    if 0 < n then
      let c := if n < 64 - 1 then n else 64 - 1
      { id with productName := (store id.productName 0 (d.take c)).set c 0 }
    else id
  else if attr = kIdentityState then (if 1 ≤ n then { id with state := peek d 0 } else id)
  else id

def printDevice (s : LanInventory) : Report where
  ip := s.currentIp
  id := s.id
  runSwitch :=
    if 4 ≤ s.tag.dataLen then .mode (getU32 s.tag.data.bytes).toInt32 else .unavailable s.tag.resultCode

def finishQuery (s : LanInventory) : LanInventory :=
  let id :=
    if s.queryIndex < kIdentityAttrCount then
      s.id.record (kIdentityAttrs.getD s.queryIndex 0) s.msg.data s.msg.dataLen
    else s.id
  let s := { s with id := id, queryIndex := s.queryIndex + 1, stepStarted := false }
  if s.queryIndex > kIdentityAttrCount then
    { s with reports := s.reports ++ [s.printDevice], session := s.session.close.2, phase := .close }
  else s

/-- The loop that sets `network`. -/
def networkOf (ip mask : IPAddress) : IPAddress :=
  IPAddress.ofOctets (ip.octet 0 &&& mask.octet 0) (ip.octet 1 &&& mask.octet 1) (ip.octet 2 &&& mask.octet 2)
    (ip.octet 3 &&& mask.octet 3)

/-- The loop that sets `broadcast`. -/
def broadcastOf (ip mask : IPAddress) : IPAddress :=
  IPAddress.ofOctets (ip.octet 0 ||| ~~~mask.octet 0) (ip.octet 1 ||| ~~~mask.octet 1)
  (ip.octet 2 ||| ~~~mask.octet 2) (ip.octet 3 ||| ~~~mask.octet 3)

/-- The case `WaitEthernet` of `loop()`. -/
def loopWaitEthernet (s : LanInventory) (lan : Lan) (os : Platform) : LanInventory :=
  match s.eth.poll os.link with
  | (.ok, eth) =>
    let ip := eth.localIP lan
    let mask := eth.subnetMask lan
    { s with eth := eth, network := networkOf ip mask, broadcast := broadcastOf ip mask,
             currentIp := networkOf ip mask, phase := .scan }
  | (.error, eth) => { s with eth := eth, phase := .done }
  | (_, eth) => { s with eth := eth }

def loopScan (s : LanInventory) (lan : Lan) (os : Platform) : LanInventory :=
  let (more, ip) := nextHost s.currentIp
  let s := { s with currentIp := ip }
  if ¬ more ∨ s.currentIp = s.broadcast then { s with phase := .done }
  else if s.currentIp = lan.gateway ∨ s.currentIp = s.eth.localIP lan then s
  else
    { s with tcp := (s.tcp.connect s.currentIp EIP_PORT SCAN_TIMEOUT_MS os.connect (os.millis 0)).2,
             phase := .connect, dialled := s.dialled ++ [s.currentIp] }

def loopConnect (s : LanInventory) (os : Platform) : LanInventory :=
  match s.tcp.poll os.poll (os.millis 0) with
  | (.ok, tcp) =>
    { s with tcp := tcp, session := (s.session.open tcp SESSION_TIMEOUT_MS (os.millis 1)).2, phase := .register }
  | (st, tcp) =>
    if st = .timeout ∨ st = .error ∨ st = .closed then { s with tcp := tcp.close, phase := .scan }
    else { s with tcp := tcp }

def loopRegister (s : LanInventory) (os : Platform) : LanInventory :=
  match s.session.poll s.tcp (os.millis 0) os with
  | (.ok, session, tcp) =>
    { s with session := session, tcp := tcp, id := {}, queryIndex := 0, stepStarted := false, phase := .query }
  | (st, session, tcp) =>
    if st = .timeout ∨ st = .error then { s with session := session.abort, tcp := tcp.close, phase := .scan }
    else { s with session := session, tcp := tcp }

/-- The call of `tag.poll()` or `msg.poll()` for the query that has been started. -/
def pollQuery (s : LanInventory) (os : Platform) : Status × LanInventory :=
  if kIdentityAttrCount ≤ s.queryIndex then
    let (st, tag, msg, tcp) := s.tag.poll s.msg s.tcp os
    (st, { s with tag := tag, msg := msg, tcp := tcp })
  else
    let (st, msg, tcp) := s.msg.poll s.tcp os
    (st, { s with msg := msg, tcp := tcp })

def loopQuery (s : LanInventory) (os : Platform) : LanInventory :=
  if ¬ s.stepStarted then s.startQuery (os.millis 0)
  else
    let isMode := kIdentityAttrCount ≤ s.queryIndex
    let (st, s) := s.pollQuery os
    if st = .ok then s.finishQuery
    else if st = .timeout ∨ st = .error ∨ st = .closed then
      if isMode then s.finishQuery else { s with session := s.session.abort, tcp := s.tcp.close, phase := .scan }
    else s

def loopClose (s : LanInventory) (os : Platform) : LanInventory :=
  match s.session.poll s.tcp (os.millis 0) os with
  | (st, session, tcp) =>
    if st = .ok ∨ st = .closed then
      { s with session := session, tcp := tcp.close, found := s.found + 1, phase := .scan }
    else if st = .timeout ∨ st = .error then
      { s with session := session.abort, tcp := tcp.close, found := s.found + 1, phase := .scan }
    else { s with session := session, tcp := tcp }

def loop (s : LanInventory) (lan : Lan) (os : Platform) : LanInventory :=
  match s.phase with
  | .waitEthernet => s.loopWaitEthernet lan os
  | .scan => s.loopScan lan os
  | .connect => s.loopConnect os
  | .register => s.loopRegister os
  | .query => s.loopQuery os
  | .close => s.loopClose os
  | .done => s

/-- What happens to the sketch after `setup()`. -/
inductive Act where
  /-- Bytes arrive at the socket. -/
  | deliver (bs : List UInt8)
  | loop (os : Platform)

def step (lan : Lan) (s : LanInventory) : Act → LanInventory
  | .deliver bs => { s with tcp := s.tcp.deliver bs }
  | .loop os => s.loop lan os

/-- The sketch after `setup()` and `as`. -/
def reached (lan : Lan) (began configured : Bool) (as : List Act) : LanInventory :=
  as.foldl (step lan) (setup {} began configured)

/-! ### What a call of `loop()` does -/

/-- The results on which a phase is left. -/
def Fails (st : Status) : Prop := st = .timeout ∨ st = .error ∨ st = .closed

instance (st : Status) : Decidable (Fails st) := inferInstanceAs (Decidable (_ ∨ _))

/-- `s'` is what a call of `loop()` makes of `s`. -/
inductive Looped (lan : Lan) (os : Platform) (s : LanInventory) : LanInventory → Prop where
  | rests (phase : s.phase = .done) : Looped lan os s s
  | waits (phase : s.phase = .waitEthernet) (failed : s.eth.failed = false)
    (down : s.eth.started = true → os.link = false) : Looped lan os s s
  | fails (phase : s.phase = .waitEthernet) (failed : s.eth.failed = true) : Looped lan os s { s with phase := .done }
  | starts (phase : s.phase = .waitEthernet) :
    Looped lan os s
      { s with eth := { s.eth with ready := true }, network := networkOf lan.localIP lan.subnetMask,
               broadcast := broadcastOf lan.localIP lan.subnetMask,
               currentIp := networkOf lan.localIP lan.subnetMask, phase := .scan }
  | ends (phase : s.phase = .scan) (more : Bool) (ip : IPAddress) (next : nextHost s.currentIp = (more, ip))
    (last : more = false ∨ ip = s.broadcast) : Looped lan os s { s with currentIp := ip, phase := .done }
  | skips (phase : s.phase = .scan) (ip : IPAddress) (next : nextHost s.currentIp = (true, ip))
    (more : ip ≠ s.broadcast)
    (own : ip = lan.gateway ∨ ip = s.eth.localIP lan) : Looped lan os s { s with currentIp := ip }
  | dials (phase : s.phase = .scan) (ip : IPAddress) (next : nextHost s.currentIp = (true, ip))
    (more : ip ≠ s.broadcast) (other : ¬ (ip = lan.gateway ∨ ip = s.eth.localIP lan)) :
    Looped lan os s
      { s with currentIp := ip, phase := .connect, dialled := s.dialled ++ [ip],
               tcp := (s.tcp.connect ip EIP_PORT SCAN_TIMEOUT_MS os.connect (os.millis 0)).2 }
  | connecting (phase : s.phase = .connect) (st : Status) (tcp : TcpConnection)
    (polled : s.tcp.poll os.poll (os.millis 0) = (st, tcp)) (going : st ≠ .ok ∧ ¬ Fails st) :
    Looped lan os s { s with tcp := tcp }
  | refused (phase : s.phase = .connect) (st : Status) (tcp : TcpConnection)
    (polled : s.tcp.poll os.poll (os.millis 0) = (st, tcp)) (failed : Fails st) :
    Looped lan os s { s with tcp := tcp.close, phase := .scan }
  | connected (phase : s.phase = .connect) (tcp : TcpConnection)
    (polled : s.tcp.poll os.poll (os.millis 0) = (.ok, tcp)) :
    Looped lan os s
      { s with tcp := tcp, session := (s.session.open tcp SESSION_TIMEOUT_MS (os.millis 1)).2, phase := .register }
  | registering (phase : s.phase = .register) (st : Status) (session : Session) (tcp : TcpConnection)
    (polled : s.session.poll s.tcp (os.millis 0) os = (st, session, tcp))
    (going : st ≠ .ok ∧ st ≠ .timeout ∧ st ≠ .error) : Looped lan os s { s with session := session, tcp := tcp }
  | rejected (phase : s.phase = .register) (st : Status) (session : Session) (tcp : TcpConnection)
    (polled : s.session.poll s.tcp (os.millis 0) os = (st, session, tcp)) (failed : st = .timeout ∨ st = .error) :
    Looped lan os s { s with session := session.abort, tcp := tcp.close, phase := .scan }
  | registered (phase : s.phase = .register) (session : Session) (tcp : TcpConnection)
    (polled : s.session.poll s.tcp (os.millis 0) os = (.ok, session, tcp)) :
    Looped lan os s
      { s with session := session, tcp := tcp, id := {}, queryIndex := 0, stepStarted := false, phase := .query }
  | asks (phase : s.phase = .query) (idle : s.stepStarted = false) : Looped lan os s (s.startQuery (os.millis 0))
  | asking (phase : s.phase = .query) (started : s.stepStarted = true) (st : Status) (s₁ : LanInventory)
    (polled : s.pollQuery os = (st, s₁)) (going : st ≠ .ok ∧ ¬ Fails st) : Looped lan os s s₁
  | drops (phase : s.phase = .query) (started : s.stepStarted = true) (st : Status) (s₁ : LanInventory)
    (polled : s.pollQuery os = (st, s₁)) (failed : Fails st) (identity : s.queryIndex < kIdentityAttrCount) :
    Looped lan os s { s₁ with session := s₁.session.abort, tcp := s₁.tcp.close, phase := .scan }
  | answered (phase : s.phase = .query) (started : s.stepStarted = true) (st : Status) (s₁ : LanInventory)
    (polled : s.pollQuery os = (st, s₁)) (ended : st = .ok ∨ Fails st ∧ kIdentityAttrCount ≤ s.queryIndex) :
    Looped lan os s s₁.finishQuery
  | closing (phase : s.phase = .close) (st : Status) (session : Session) (tcp : TcpConnection)
    (polled : s.session.poll s.tcp (os.millis 0) os = (st, session, tcp)) (going : st ≠ .ok ∧ ¬ Fails st) :
    Looped lan os s { s with session := session, tcp := tcp }
  | closed (phase : s.phase = .close) (st : Status) (session session' : Session) (tcp : TcpConnection)
    (polled : s.session.poll s.tcp (os.millis 0) os = (st, session, tcp)) (ended : st = .ok ∨ Fails st)
    (rest : session' = session ∧ (st = .ok ∨ st = .closed) ∨ session' = session.abort) :
    Looped lan os s { s with session := session', tcp := tcp.close, found := s.found + 1, phase := .scan }

private theorem looped_waitEthernet {lan : Lan} {os : Platform} {s : LanInventory} (hp : s.phase = .waitEthernet) :
    Looped lan os s (s.loopWaitEthernet lan os) := by
  have hready (c : Client) (hc : { s.eth with ready := true } = c) :
      Looped lan os s
        { s with eth := c, network := networkOf (c.localIP lan) (c.subnetMask lan),
                 broadcast := broadcastOf (c.localIP lan) (c.subnetMask lan),
                 currentIp := networkOf (c.localIP lan) (c.subnetMask lan), phase := .scan } := by
    subst hc
    exact .starts hp
  unfold loopWaitEthernet Client.poll
  by_cases hfailed : s.eth.failed = true
  · rw [if_pos hfailed]
    exact .fails hp hfailed
  · rw [if_neg hfailed]
    by_cases hstarted : s.eth.started = true
    · rw [if_neg (by simp [hstarted])]
      by_cases hr : s.eth.ready = true
      · rw [if_pos hr]
        apply hready
        rw [← hr]
      · rw [if_neg hr]
        by_cases hlink : os.link = true
        · rw [if_pos hlink]
          exact hready _ rfl
        · rw [if_neg hlink]
          exact .waits hp (by simpa using hfailed) fun _ => by simpa using hlink
    · rw [if_pos (by simp [hstarted])]
      exact .waits hp (by simpa using hfailed) fun h => absurd h hstarted

private theorem looped_scan {lan : Lan} {os : Platform} {s : LanInventory} (hp : s.phase = .scan) :
    Looped lan os s (s.loopScan lan os) := by
  obtain ⟨more, ip, hnext⟩ : ∃ more ip, nextHost s.currentIp = (more, ip) := ⟨_, _, rfl⟩
  unfold loopScan
  rw [hnext]
  dsimp only
  by_cases hlast : ¬ more = true ∨ ip = s.broadcast
  · rw [if_pos hlast]
    refine .ends hp more ip hnext ?_
    simpa using hlast
  · obtain ⟨hmore, hne⟩ := not_or.1 hlast
    obtain rfl : more = true := by simpa using hmore
    rw [if_neg hlast]
    by_cases hown : ip = lan.gateway ∨ ip = s.eth.localIP lan
    · rw [if_pos hown]
      exact .skips hp ip hnext hne hown
    · rw [if_neg hown]
      exact .dials hp ip hnext hne hown

private theorem looped_connect {lan : Lan} {os : Platform} {s : LanInventory} (hp : s.phase = .connect) :
    Looped lan os s (s.loopConnect os) := by
  obtain ⟨st, tcp, hpoll⟩ : ∃ st tcp, s.tcp.poll os.poll (os.millis 0) = (st, tcp) := ⟨_, _, rfl⟩
  unfold loopConnect
  rw [hpoll]
  cases st with
  | ok => exact .connected hp tcp hpoll
  | timeout => exact .refused hp _ tcp hpoll (Or.inl rfl)
  | error => exact .refused hp _ tcp hpoll (Or.inr (Or.inl rfl))
  | closed => exact .refused hp _ tcp hpoll (Or.inr (Or.inr rfl))
  | _ => exact .connecting hp _ tcp hpoll (by decide)

private theorem looped_register {lan : Lan} {os : Platform} {s : LanInventory} (hp : s.phase = .register) :
    Looped lan os s (s.loopRegister os) := by
  obtain ⟨st, session, tcp, hpoll⟩ : ∃ st session tcp, s.session.poll s.tcp (os.millis 0) os = (st, session, tcp) :=
    ⟨_, _, _, rfl⟩
  unfold loopRegister
  rw [hpoll]
  cases st with
  | ok => exact .registered hp session tcp hpoll
  | timeout => exact .rejected hp _ session tcp hpoll (Or.inl rfl)
  | error => exact .rejected hp _ session tcp hpoll (Or.inr rfl)
  | _ => exact .registering hp _ session tcp hpoll (by decide)

private theorem looped_query {lan : Lan} {os : Platform} {s : LanInventory} (hp : s.phase = .query) :
    Looped lan os s (s.loopQuery os) := by
  unfold loopQuery
  by_cases hstarted : s.stepStarted = true
  · rw [if_neg (by simp [hstarted])]
    obtain ⟨st, s₁, hpoll⟩ : ∃ st s₁, s.pollQuery os = (st, s₁) := ⟨_, _, rfl⟩
    rw [hpoll]
    dsimp only
    by_cases hok : st = .ok
    · rw [if_pos hok]
      exact .answered hp hstarted st s₁ hpoll (Or.inl hok)
    · rw [if_neg hok]
      by_cases hfail : st = .timeout ∨ st = .error ∨ st = .closed
      · rw [if_pos hfail]
        by_cases hmode : kIdentityAttrCount ≤ s.queryIndex
        · rw [if_pos hmode]
          exact .answered hp hstarted st s₁ hpoll (Or.inr ⟨hfail, hmode⟩)
        · rw [if_neg hmode]
          exact .drops hp hstarted st s₁ hpoll hfail (Nat.lt_of_not_le hmode)
      · rw [if_neg hfail]
        exact .asking hp hstarted st s₁ hpoll ⟨hok, hfail⟩
  · rw [if_pos hstarted]
    exact .asks hp (by simpa using hstarted)

private theorem looped_close {lan : Lan} {os : Platform} {s : LanInventory} (hp : s.phase = .close) :
    Looped lan os s (s.loopClose os) := by
  obtain ⟨st, session, tcp, hpoll⟩ : ∃ st session tcp, s.session.poll s.tcp (os.millis 0) os = (st, session, tcp) :=
    ⟨_, _, _, rfl⟩
  unfold loopClose
  rw [hpoll]
  cases st with
  | ok => exact .closed hp _ session session tcp hpoll (Or.inl rfl) (Or.inl ⟨rfl, Or.inl rfl⟩)
  | closed => exact .closed hp _ session session tcp hpoll (Or.inr (by decide)) (Or.inl ⟨rfl, Or.inr rfl⟩)
  | timeout => exact .closed hp _ session session.abort tcp hpoll (Or.inr (by decide)) (Or.inr rfl)
  | error => exact .closed hp _ session session.abort tcp hpoll (Or.inr (by decide)) (Or.inr rfl)
  | _ => exact .closing hp _ session tcp hpoll (by decide)

theorem loop_cases (lan : Lan) (os : Platform) (s : LanInventory) : Looped lan os s (s.loop lan os) := by
  unfold loop
  cases hp : s.phase with
  | waitEthernet => exact looped_waitEthernet hp
  | scan => exact looped_scan hp
  | connect => exact looped_connect hp
  | register => exact looped_register hp
  | query => exact looped_query hp
  | close => exact looped_close hp
  | done => exact .rests hp

/-! ### What a query leaves alone -/

/-- `s'` differs from `s` in the members that a query works with. -/
structure Queried (s s' : LanInventory) : Prop where
  eth : s'.eth = s.eth
  session : s'.session = s.session
  phase : s'.phase = s.phase
  network : s'.network = s.network
  broadcast : s'.broadcast = s.broadcast
  currentIp : s'.currentIp = s.currentIp
  found : s'.found = s.found
  queryIndex : s'.queryIndex = s.queryIndex
  id : s'.id = s.id
  dialled : s'.dialled = s.dialled
  reports : s'.reports = s.reports

theorem startQuery_queried (s : LanInventory) (now : UInt32) :
    Queried s (s.startQuery now) ∧ (s.startQuery now).tcp = s.tcp := by
  unfold startQuery
  split <;> exact ⟨⟨rfl, rfl, rfl, rfl, rfl, rfl, rfl, rfl, rfl, rfl, rfl⟩, rfl⟩

theorem pollQuery_queried {s s' : LanInventory} {os : Platform} {st : Status} (h : s.pollQuery os = (st, s')) :
    Queried s s' ∧ s'.stepStarted = s.stepStarted := by
  unfold pollQuery at h
  split at h <;> obtain rfl := congrArg Prod.snd h
  all_goals exact ⟨⟨rfl, rfl, rfl, rfl, rfl, rfl, rfl, rfl, rfl, rfl, rfl⟩, rfl⟩

/-- `finishQuery()` goes on to the next query, or prints the device and goes on to close the session. -/
theorem finishQuery_cases (s : LanInventory) :
    (s.queryIndex < kIdentityAttrCount ∧ s.finishQuery =
      { s with id := s.id.record (kIdentityAttrs.getD s.queryIndex 0) s.msg.data s.msg.dataLen,
               queryIndex := s.queryIndex + 1, stepStarted := false }) ∨
    (kIdentityAttrCount ≤ s.queryIndex ∧ s.finishQuery =
      { s with queryIndex := s.queryIndex + 1, stepStarted := false, reports := s.reports ++ [s.printDevice],
               session := s.session.close.2, phase := .close }) := by
  unfold finishQuery
  by_cases hlast : s.queryIndex < kIdentityAttrCount
  · have hmore : ¬ s.queryIndex + 1 > kIdentityAttrCount := by omega
    refine Or.inl ⟨hlast, ?_⟩
    rw [if_pos hlast]
    exact if_neg hmore
  · have hdone : s.queryIndex + 1 > kIdentityAttrCount := by omega
    refine Or.inr ⟨Nat.le_of_not_lt hlast, ?_⟩
    rw [if_neg hlast]
    exact if_pos hdone

end LanInventory

end ControlLogix
