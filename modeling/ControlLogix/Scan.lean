import ControlLogix.LanInventory
import ControlLogix.Sockets
import ControlLogix.Subnets

/-!
# The scan of `LanInventory`

`nextHost()` adds one to an address, so the scan goes through the numbers of a network in ascending order.

* `IPAddress.host_inj`, `LanInventory.nextHost_host`: addresses as numbers;
* `Lan.mem_hosts_prefix`: the hosts that are to be dialled, for the usual masks;
* `LanInventory.scan_complete`: these are dialled, each once, whatever the network does.
-/

namespace ControlLogix

open Bytes
open Subnets (and_concat or_concat)

namespace IPAddress

/-- The octets are the bytes. -/
theorem putU32_ofOctets (a b c d : UInt8) : putU32 (ofOctets a b c d) = [a, b, c, d] := putU32_getU32 (Nat.le_refl 4)

theorem octets (ip : IPAddress) : ∃ a b c d, ip = ofOctets a b c d := by
  obtain ⟨a, b, c, d, hbytes⟩ : ∃ a b c d, putU32 ip = [a, b, c, d] := ⟨_, _, _, _, rfl⟩
  refine ⟨a, b, c, d, ?_⟩
  have hget := getU32_putU32 ip []
  rw [List.append_nil, hbytes] at hget
  exact hget.symm

theorem octet_ofOctets (a b c d : UInt8) (i : Nat) : (ofOctets a b c d).octet i = peek [a, b, c, d] i := by
  rw [octet, putU32_ofOctets]

theorem octets_ofOctets (a b c d : UInt8) : (ofOctets a b c d).octet 0 = a ∧ (ofOctets a b c d).octet 1 = b ∧
    (ofOctets a b c d).octet 2 = c ∧ (ofOctets a b c d).octet 3 = d := by
  simp only [octet_ofOctets]
  exact ⟨rfl, rfl, rfl, rfl⟩

theorem setOctet_ofOctets (a b c d : UInt8) (i : Nat) (v : UInt8) :
    (ofOctets a b c d).setOctet i v = getU32 ([a, b, c, d].set i v) := by
  rw [setOctet, putU32_ofOctets]

theorem host_ofOctets (a b c d : UInt8) :
    (ofOctets a b c d).host = a.toNat * 2 ^ 24 + b.toNat * 2 ^ 16 + c.toNat * 2 ^ 8 + d.toNat := by
  simp only [host, octet_ofOctets]
  rfl

/-- The octets side by side. -/
theorem host_concat (a b c d : UInt8) :
    (ofOctets a b c d).host = 2 ^ 8 * (2 ^ 8 * (2 ^ 8 * a.toNat + b.toNat) + c.toNat) + d.toNat := by
  rw [host_ofOctets]
  omega

theorem host_lt (ip : IPAddress) : ip.host < 2 ^ 32 := by
  have h (i : Nat) : (ip.octet i).toNat < 256 := UInt8.toNat_lt _
  have h₀ := h 0
  have h₁ := h 1
  have h₂ := h 2
  have h₃ := h 3
  unfold host
  omega

theorem host_inj {ip ip' : IPAddress} (h : ip.host = ip'.host) : ip = ip' := by
  obtain ⟨a, b, c, d, rfl⟩ := ip.octets
  obtain ⟨a', b', c', d', rfl⟩ := ip'.octets
  rw [host_ofOctets, host_ofOctets] at h
  have ha := a.toNat_lt
  have hb := b.toNat_lt
  have hc := c.toNat_lt
  have hd := d.toNat_lt
  have ha' := a'.toNat_lt
  have hb' := b'.toNat_lt
  have hc' := c'.toNat_lt
  have hd' := d'.toNat_lt
  have ea : a = a' := UInt8.toNat_inj.1 (by omega)
  have eb : b = b' := UInt8.toNat_inj.1 (by omega)
  have ec : c = c' := UInt8.toNat_inj.1 (by omega)
  have ed : d = d' := UInt8.toNat_inj.1 (by omega)
  rw [ea, eb, ec, ed]

theorem host_and (a b c d a' b' c' d' : UInt8) :
    (ofOctets (a &&& a') (b &&& b') (c &&& c') (d &&& d')).host =
      (ofOctets a b c d).host &&& (ofOctets a' b' c' d').host := by
  simp only [host_concat, UInt8.toNat_and]
  rw [and_concat _ _ d.toNat_lt d'.toNat_lt, and_concat _ _ c.toNat_lt c'.toNat_lt,
    and_concat _ _ b.toNat_lt b'.toNat_lt]

theorem host_or (a b c d a' b' c' d' : UInt8) :
    (ofOctets (a ||| a') (b ||| b') (c ||| c') (d ||| d')).host =
      (ofOctets a b c d).host ||| (ofOctets a' b' c' d').host := by
  simp only [host_concat, UInt8.toNat_or]
  rw [or_concat _ _ d.toNat_lt d'.toNat_lt, or_concat _ _ c.toNat_lt c'.toNat_lt,
    or_concat _ _ b.toNat_lt b'.toNat_lt]

theorem host_not (a b c d : UInt8) :
    (ofOctets (~~~a) (~~~b) (~~~c) (~~~d)).host = 2 ^ 32 - 1 - (ofOctets a b c d).host := by
  have ha := a.toNat_lt
  have hb := b.toNat_lt
  have hc := c.toNat_lt
  have hd := d.toNat_lt
  have hsize : UInt8.size = 256 := rfl
  simp only [host_ofOctets, UInt8.toNat_not]
  omega

end IPAddress

namespace LanInventory

open IPAddress (ofOctets octet_ofOctets setOctet_ofOctets host_ofOctets host_lt host_inj)

private theorem succ_octet {v : UInt8} (h : v < 255) : (v + 1).toNat = v.toNat + 1 := by
  have hlt : v.toNat < 255 := h
  rw [UInt8.toNat_add]
  simp
  omega

private theorem last_octet {v : UInt8} (h : ¬ v < 255) : v.toNat = 255 := by
  have hge : ¬ v.toNat < 255 := h
  have hlt := v.toNat_lt
  omega

theorem nextHost_ofOctets (a b c d : UInt8) :
    nextHost (ofOctets a b c d) =
      if d < 255 then (true, ofOctets a b c (d + 1))
      else if c < 255 then (true, ofOctets a b (c + 1) 0)
      else if b < 255 then (true, ofOctets a (b + 1) 0 0)
      else if a < 255 then (true, ofOctets (a + 1) 0 0 0)
      else (false, ofOctets 0 0 0 0) := by
  have hset (a b c d : UInt8) : (ofOctets a b c d).setOctet 3 0 = ofOctets a b c 0 ∧
      (ofOctets a b c d).setOctet 2 0 = ofOctets a b 0 d ∧ (ofOctets a b c d).setOctet 1 0 = ofOctets a 0 c d ∧
      (ofOctets a b c d).setOctet 0 0 = ofOctets 0 b c d := by
    simp only [setOctet_ofOctets]
    exact ⟨rfl, rfl, rfl, rfl⟩
  simp only [nextHost, advance, (hset _ _ _ _).1, (hset _ _ _ _).2.1, (hset _ _ _ _).2.2.1, (hset _ _ _ _).2.2.2,
    octet_ofOctets, setOctet_ofOctets]
  rfl

/-- `nextHost()` adds one to the address, or the address is the last one. -/
theorem nextHost_host (ip : IPAddress) :
    ((nextHost ip).1 = true ∧ (nextHost ip).2.host = ip.host + 1) ∨
    ((nextHost ip).1 = false ∧ ip.host = 2 ^ 32 - 1) := by
  obtain ⟨a, b, c, d, rfl⟩ := ip.octets
  have hzero : (0 : UInt8).toNat = 0 := rfl
  rw [nextHost_ofOctets, host_ofOctets]
  by_cases hd : d < 255
  · have hsucc := succ_octet hd
    rw [if_pos hd]
    refine Or.inl ⟨rfl, ?_⟩
    rw [host_ofOctets]
    omega
  · have hdl := last_octet hd
    rw [if_neg hd]
    by_cases hc : c < 255
    · have hsucc := succ_octet hc
      rw [if_pos hc]
      refine Or.inl ⟨rfl, ?_⟩
      rw [host_ofOctets]
      omega
    · have hcl := last_octet hc
      rw [if_neg hc]
      by_cases hb : b < 255
      · have hsucc := succ_octet hb
        rw [if_pos hb]
        refine Or.inl ⟨rfl, ?_⟩
        rw [host_ofOctets]
        omega
      · have hbl := last_octet hb
        rw [if_neg hb]
        by_cases ha : a < 255
        · have hsucc := succ_octet ha
          rw [if_pos ha]
          refine Or.inl ⟨rfl, ?_⟩
          rw [host_ofOctets]
          omega
        · have hal := last_octet ha
          rw [if_neg ha]
          exact Or.inr ⟨rfl, by omega⟩

end LanInventory

/-! ### The hosts of a network -/

namespace Lan

/-- The number of the network address, and that of the broadcast address. -/
def first (lan : Lan) : Nat := Subnets.first lan.subnetMask.host lan.localIP.host

def last (lan : Lan) : Nat := Subnets.last 32 lan.subnetMask.host lan.localIP.host

/-- Where the scan ends.  Without host bits the broadcast address is the one it starts from, and it goes on to the
last of all addresses. -/
def limit (lan : Lan) : Nat := if lan.first < lan.last then lan.last else 2 ^ 32

/-- The hosts below `h`, without the gateway and the device itself. -/
def below (lan : Lan) (h : Nat) : List Nat :=
  (List.range' (lan.first + 1) (h - (lan.first + 1))).filter fun a => a ≠ lan.gateway.host ∧ a ≠ lan.localIP.host

/-- All hosts to dial. -/
def hosts (lan : Lan) : List Nat := lan.below lan.limit

theorem first_lt_limit (lan : Lan) : lan.first < lan.limit := by
  have hle : lan.first ≤ lan.localIP.host := Subnets.first_le
  have hlt := lan.localIP.host_lt
  unfold limit
  split
  · assumption
  · omega

theorem limit_le (lan : Lan) : lan.limit ≤ 2 ^ 32 := by
  have hlt : lan.last < 2 ^ 32 := Subnets.last_lt lan.localIP.host_lt
  unfold limit
  split <;> omega

theorem below_first (lan : Lan) : lan.below (lan.first + 1) = [] := by
  rw [below, Nat.sub_self]
  rfl

/-- One host more. -/
theorem below_succ (lan : Lan) {h : Nat} (hh : lan.first < h) :
    lan.below (h + 1) = lan.below h ++ if h ≠ lan.gateway.host ∧ h ≠ lan.localIP.host then [h] else [] := by
  have hlen : h + 1 - (lan.first + 1) = h - (lan.first + 1) + 1 := by omega
  have hend : lan.first + 1 + (h - (lan.first + 1)) = h := by omega
  rw [below, below, hlen, List.range'_1_concat, List.filter_append, hend, List.filter_singleton]
  by_cases hother : h ≠ lan.gateway.host ∧ h ≠ lan.localIP.host
  · rw [if_pos hother, decide_eq_true hother]
    rfl
  · rw [if_neg hother, decide_eq_false hother]
    rfl

theorem below_prefix (lan : Lan) {h h' : Nat} (hle : h ≤ h') : lan.below h <+: lan.below h' := by
  apply List.IsPrefix.filter
  have hsplit : h' - (lan.first + 1) = h - (lan.first + 1) +
    (h' - (lan.first + 1) - (h - (lan.first + 1))) := by omega
  rw [hsplit, ← List.range'_append_1]
  exact List.prefix_append _ _

theorem mem_below {lan : Lan} {h a : Nat} :
    a ∈ lan.below h ↔ lan.first < a ∧ a < h ∧ a ≠ lan.gateway.host ∧ a ≠ lan.localIP.host := by
  rw [below, List.mem_filter, List.mem_range'_1, decide_eq_true_eq]
  constructor
  · rintro ⟨⟨hfirst, hlt⟩, hother⟩
    exact ⟨by omega, by omega, hother⟩
  · rintro ⟨hfirst, hlt, hother⟩
    exact ⟨⟨by omega, by omega⟩, hother⟩

/-- With `k` host bits, the hosts are the numbers of the subnet that are not its first, its last, the gateway or the
device itself. -/
theorem mem_hosts_prefix {lan : Lan} {k a : Nat} (hk : 0 < k) (hk' : k ≤ 32)
    (hmask : lan.subnetMask.host = 2 ^ 32 - 2 ^ k) :
    a ∈ lan.hosts ↔ a / 2 ^ k = lan.localIP.host / 2 ^ k ∧ a % 2 ^ k ≠ 0 ∧ a % 2 ^ k ≠ 2 ^ k - 1 ∧
      a ≠ lan.gateway.host ∧ a ≠ lan.localIP.host := by
  have hfirst : lan.first = 2 ^ k * (lan.localIP.host / 2 ^ k) := by
    rw [first, hmask]
    exact Subnets.first_prefix lan.localIP.host_lt hk'
  have hlast : lan.last = 2 ^ k * (lan.localIP.host / 2 ^ k) + (2 ^ k - 1) := by
    rw [last, hmask]
    exact Subnets.last_prefix hk'
  have htwo : 2 ^ 1 ≤ 2 ^ k := Nat.pow_le_pow_right (by omega) hk
  have hlimit : lan.limit = lan.last := if_pos (by omega)
  have hdiv := Nat.div_add_mod a (2 ^ k)
  have hmod := Nat.mod_lt a (Nat.two_pow_pos k)
  rw [hosts, mem_below, hlimit, hfirst, hlast]
  constructor
  · rintro ⟨hlo, hhi, hother⟩
    have hblock : a / 2 ^ k = lan.localIP.host / 2 ^ k := by
      apply Nat.div_eq_of_lt_le
      · rw [Nat.mul_comm]
        omega
      · rw [Nat.succ_mul, Nat.mul_comm]
        omega
    rw [hblock] at hdiv
    exact ⟨hblock, by omega, by omega, hother⟩
  · rintro ⟨hblock, hzero, hones, hother⟩
    rw [hblock] at hdiv
    exact ⟨by omega, by omega, hother⟩

end Lan

namespace LanInventory

open IPAddress (octets_ofOctets host_inj)

theorem host_networkOf (lan : Lan) : (networkOf lan.localIP lan.subnetMask).host = lan.first := by
  rw [Lan.first, networkOf, Subnets.first]
  obtain ⟨a, b, c, d, hip⟩ := lan.localIP.octets
  obtain ⟨a', b', c', d', hmask⟩ := lan.subnetMask.octets
  obtain ⟨ha, hb, hc, hd⟩ := octets_ofOctets a b c d
  obtain ⟨ha', hb', hc', hd'⟩ := octets_ofOctets a' b' c' d'
  rw [hip, hmask, ha, hb, hc, hd, ha', hb', hc', hd']
  exact IPAddress.host_and a b c d a' b' c' d'

theorem host_broadcastOf (lan : Lan) : (broadcastOf lan.localIP lan.subnetMask).host = lan.last := by
  rw [Lan.last, broadcastOf, Subnets.last]
  obtain ⟨a, b, c, d, hip⟩ := lan.localIP.octets
  obtain ⟨a', b', c', d', hmask⟩ := lan.subnetMask.octets
  obtain ⟨ha, hb, hc, hd⟩ := octets_ofOctets a b c d
  obtain ⟨ha', hb', hc', hd'⟩ := octets_ofOctets a' b' c' d'
  rw [hip, hmask, ha, hb, hc, hd, ha', hb', hc', hd', ← IPAddress.host_not]
  exact IPAddress.host_or a b c d _ _ _ _

/-! ### The addresses dialled -/

/-- The phases between `WaitEthernet` and `Done`. -/
def Phase.Scanning : Phase → Prop
  | .scan | .connect | .register | .query | .close => True
  | .waitEthernet | .done => False

/-- How far the scan has come. -/
inductive Scanned (lan : Lan) (s : LanInventory) : Prop where
  | waiting (phase : s.phase = .waitEthernet) (ready : s.eth.ready = false) (dialled : s.dialled = [])
  | failed (phase : s.phase = .done) (ready : s.eth.ready = false) (dialled : s.dialled = [])
  | going (phase : s.phase.Scanning) (ready : s.eth.ready = true) (broadcast : s.broadcast.host = lan.last)
    (cursor : lan.first ≤ s.currentIp.host) (inside : s.currentIp.host < lan.limit)
    (dialled : s.dialled.map IPAddress.host = lan.below (s.currentIp.host + 1))
  | complete (phase : s.phase = .done) (ready : s.eth.ready = true)
    (dialled : s.dialled.map IPAddress.host = lan.hosts)

variable {lan : Lan} {s s' : LanInventory} {os : Platform}

/-- The next address is a host, or the scan is over. -/
private theorem limit_reached {ip : IPAddress} (hnext : nextHost s.currentIp = (true, ip))
    (hlast : s.broadcast.host = lan.last) (hcursor : lan.first ≤ s.currentIp.host) :
    ip.host = s.currentIp.host + 1 ∧ (ip = s.broadcast ↔ ip.host = lan.limit) := by
  have hhost : ip.host = s.currentIp.host + 1 := by
    rcases nextHost_host s.currentIp with ⟨-, hsucc⟩ | ⟨hfalse, -⟩
    · rw [hnext] at hsucc
      exact hsucc
    · rw [hnext] at hfalse
      cases hfalse
  have hlt := ip.host_lt
  refine ⟨hhost, fun heq => ?_, fun heq => host_inj ?_⟩
  · rw [heq, hlast] at hhost ⊢
    have hle : lan.first < lan.last := by omega
    rw [Lan.limit, if_pos hle]
  · rw [Lan.limit] at heq
    split at heq
    · rw [heq, hlast]
    · omega

/-- In a scanning phase the scan is going on. -/
theorem Scanned.scanning (h : Scanned lan s) (hp : s.phase.Scanning) :
    s.eth.ready = true ∧ s.broadcast.host = lan.last ∧ lan.first ≤ s.currentIp.host ∧ s.currentIp.host < lan.limit ∧
      s.dialled.map IPAddress.host = lan.below (s.currentIp.host + 1) := by
  cases h with
  | waiting phase => rw [phase] at hp; exact hp.elim
  | failed phase => rw [phase] at hp; exact hp.elim
  | complete phase => rw [phase] at hp; exact hp.elim
  | going _ ready broadcast cursor inside dialled => exact ⟨ready, broadcast, cursor, inside, dialled⟩

/-- A step within the scanning phases that dials nothing. -/
private theorem Scanned.keep (h : Scanned lan s) (hp : s.phase.Scanning) (hp' : s'.phase.Scanning)
    (heth : s'.eth = s.eth)
    (hbroadcast : s'.broadcast = s.broadcast) (hip : s'.currentIp = s.currentIp) (hdialled : s'.dialled = s.dialled) :
    Scanned lan s' := by
  obtain ⟨ready, broadcast, cursor, inside, dialled⟩ := h.scanning hp
  rw [← heth] at ready
  rw [← hbroadcast] at broadcast
  rw [← hip] at cursor inside
  rw [← hip, ← hdialled] at dialled
  exact .going hp' ready broadcast cursor inside dialled

private theorem Scanned.queried (h : Scanned lan s) (hp : s.phase.Scanning) (hq : Queried s s') : Scanned lan s' := by
  have hp' : s'.phase.Scanning := by
    rw [hq.phase]
    exact hp
  exact h.keep hp hp' hq.eth hq.broadcast hq.currentIp hq.dialled

theorem scanned_loop (h : Scanned lan s) (hl : Looped lan os s s') : Scanned lan s' := by
  have hscanning (hp : s.phase = .scan ∨ s.phase = .connect ∨ s.phase = .register ∨ s.phase = .query ∨
    s.phase = .close) :
      s.phase.Scanning := by
    rcases hp with hp | hp | hp | hp | hp <;> rw [hp] <;> trivial
  cases hl with
  | rests => exact h
  | waits => exact h
  | fails phase =>
    cases h with
    | waiting _ ready dialled => exact .failed rfl ready dialled
    | failed phase' => rw [phase] at phase'; cases phase'
    | going phase' => rw [phase] at phase'; exact phase'.elim
    | complete phase' => rw [phase] at phase'; cases phase'
  | starts phase =>
    cases h with
    | waiting _ ready dialled =>
      have hhost := host_networkOf lan
      refine .going trivial rfl (host_broadcastOf lan) ?_ ?_ ?_
      · rw [hhost]
      · rw [hhost]
        exact lan.first_lt_limit
      · rw [hhost, dialled, lan.below_first]
        rfl
    | failed phase' => rw [phase] at phase'; cases phase'
    | going phase' => rw [phase] at phase'; exact phase'.elim
    | complete phase' => rw [phase] at phase'; cases phase'
  | ends phase more ip next last =>
    obtain ⟨ready, broadcast, cursor, inside, dialled⟩ := h.scanning (hscanning (Or.inl phase))
    refine .complete rfl ready ?_
    show s.dialled.map IPAddress.host = lan.below lan.limit
    have hlimit : lan.limit = s.currentIp.host + 1 := by
      cases more with
      | true =>
        obtain ⟨hhost, hiff⟩ := limit_reached next broadcast cursor
        rw [← hhost]
        exact (hiff.1 (last.resolve_left nofun)).symm
      | false =>
        have hle := lan.limit_le
        rcases nextHost_host s.currentIp with ⟨htrue, -⟩ | ⟨-, hlast⟩
        · rw [next] at htrue
          cases htrue
        · omega
    rw [hlimit]
    exact dialled
  | skips phase ip next more own =>
    obtain ⟨ready, broadcast, cursor, inside, dialled⟩ := h.scanning (hscanning (Or.inl phase))
    obtain ⟨hhost, hiff⟩ := limit_reached next broadcast cursor
    have hne : ip.host ≠ lan.limit := fun heq => more (hiff.2 heq)
    have hown : ¬ (ip.host ≠ lan.gateway.host ∧ ip.host ≠ lan.localIP.host) := by
      rintro ⟨hgateway, hself⟩
      rw [Client.localIP, if_pos ready] at own
      rcases own with rfl | rfl
      · exact hgateway rfl
      · exact hself rfl
    refine .going (hscanning (Or.inl phase)) ready broadcast (show lan.first ≤ ip.host by omega)
      (show ip.host < lan.limit by omega) ?_
    show s.dialled.map IPAddress.host = lan.below (ip.host + 1)
    rw [lan.below_succ (by omega), if_neg hown, List.append_nil, hhost]
    exact dialled
  | dials phase ip next more other =>
    obtain ⟨ready, broadcast, cursor, inside, dialled⟩ := h.scanning (hscanning (Or.inl phase))
    obtain ⟨hhost, hiff⟩ := limit_reached next broadcast cursor
    have hne : ip.host ≠ lan.limit := fun heq => more (hiff.2 heq)
    have hother : ip.host ≠ lan.gateway.host ∧ ip.host ≠ lan.localIP.host := by
      rw [Client.localIP, if_pos ready, not_or] at other
      exact ⟨fun heq => other.1 (host_inj heq), fun heq => other.2 (host_inj heq)⟩
    refine .going trivial ready broadcast (show lan.first ≤ ip.host by omega) (show ip.host < lan.limit by omega) ?_
    show (s.dialled ++ [ip]).map IPAddress.host = lan.below (ip.host + 1)
    rw [lan.below_succ (by omega), if_pos hother, List.map_append, dialled, List.map_singleton, hhost]
  | connecting phase => exact h.keep (hscanning (by simp [phase])) (hscanning (by simp [phase])) rfl rfl rfl rfl
  | refused phase => exact h.keep (hscanning (by simp [phase])) trivial rfl rfl rfl rfl
  | connected phase => exact h.keep (hscanning (by simp [phase])) trivial rfl rfl rfl rfl
  | registering phase => exact h.keep (hscanning (by simp [phase])) (hscanning (by simp [phase])) rfl rfl rfl rfl
  | rejected phase => exact h.keep (hscanning (by simp [phase])) trivial rfl rfl rfl rfl
  | registered phase => exact h.keep (hscanning (by simp [phase])) trivial rfl rfl rfl rfl
  | asks phase => exact h.queried (hscanning (by simp [phase])) (s.startQuery_queried (os.millis 0)).1
  | asking phase _ st s₁ polled =>
    have hq := (pollQuery_queried polled).1
    exact h.queried (hscanning (by simp [phase])) hq
  | drops phase _ st s₁ polled =>
    have hq := (pollQuery_queried polled).1
    exact h.keep (hscanning (by simp [phase])) trivial hq.eth hq.broadcast hq.currentIp hq.dialled
  | answered phase _ st s₁ polled =>
    have hq := (pollQuery_queried polled).1
    have h₁ := h.queried (hscanning (by simp [phase])) hq
    have hp₁ : s₁.phase.Scanning := by
      rw [hq.phase, phase]
      trivial
    rcases s₁.finishQuery_cases with ⟨-, heq⟩ | ⟨-, heq⟩
    · rw [heq]
      exact h₁.keep hp₁ hp₁ rfl rfl rfl rfl
    · rw [heq]
      exact h₁.keep hp₁ trivial rfl rfl rfl rfl
  | closing phase => exact h.keep (hscanning (by simp [phase])) (hscanning (by simp [phase])) rfl rfl rfl rfl
  | closed phase => exact h.keep (hscanning (by simp [phase])) trivial rfl rfl rfl rfl

theorem scanned_step (h : Scanned lan s) (a : Act) : Scanned lan (step lan s a) := by
  cases a with
  | deliver bs =>
    cases h with
    | waiting phase ready dialled => exact .waiting phase ready dialled
    | failed phase ready dialled => exact .failed phase ready dialled
    | going phase ready broadcast cursor inside dialled => exact .going phase ready broadcast cursor inside dialled
    | complete phase ready dialled => exact .complete phase ready dialled
  | loop os => exact scanned_loop h (loop_cases lan os s)

theorem scanned_setup (lan : Lan) (began configured : Bool) : Scanned lan (setup {} began configured) := by
  cases began with
  | false => exact .failed rfl rfl rfl
  | true =>
    cases configured with
    | false => exact .failed rfl rfl rfl
    | true => exact .waiting rfl rfl rfl

/-- Whatever `setup()` establishes and every step preserves holds of the sketch. -/
theorem reached_invariant {I : LanInventory → Prop} (hsetup : ∀ began configured, I (setup {} began configured))
    (hstep : ∀ s a, I s → I (step lan s a)) (began configured : Bool) (as : List Act) :
    I (reached lan began configured as) := by
  have hrun : ∀ (as : List Act) (s : LanInventory), I s → I (as.foldl (step lan) s) := by
    intro as
    induction as with
    | nil => exact fun s hs => hs
    | cons a as ih => exact fun s hs => ih (step lan s a) (hstep s a hs)
  exact hrun as _ (hsetup began configured)

/-! ### The devices reported -/

/-- The device in work has not been reported before `Close`, and is counted after it. -/
structure Counted (s : LanInventory) : Prop where
  found : s.found + (if s.phase = .close then 1 else 0) = s.reports.length
  reported : (s.reports.map Report.ip).Sublist s.dialled
  current : s.phase = .connect ∨ s.phase = .register ∨ s.phase = .query →
    ∃ before, s.dialled = before ++ [s.currentIp] ∧ (s.reports.map Report.ip).Sublist before

/-- A step that reports nothing, and dials nothing. -/
private theorem Counted.keep (h : Counted s) (hclose : s'.phase = .close ↔ s.phase = .close)
    (hwork : s'.phase = .connect ∨ s'.phase = .register ∨ s'.phase = .query →
      (s.phase = .connect ∨ s.phase = .register ∨ s.phase = .query) ∧ s'.currentIp = s.currentIp)
    (hfound : s'.found = s.found) (hdialled : s'.dialled = s.dialled) (hreports : s'.reports = s.reports) :
    Counted s' := by
  refine ⟨?_, ?_, fun hp => ?_⟩
  · rw [hfound, hreports]
    simp only [hclose]
    exact h.found
  · rw [hreports, hdialled]
    exact h.reported
  · obtain ⟨hbefore, hip⟩ := hwork hp
    rw [hreports, hdialled, hip]
    exact h.current hbefore

theorem counted_loop (h : Counted s) (hl : Looped lan os s s') : Counted s' := by
  cases hl with
  | rests => exact h
  | waits => exact h
  | fails phase => exact h.keep (by simp [phase]) (by simp) rfl rfl rfl
  | starts phase => exact h.keep (by simp [phase]) (by simp) rfl rfl rfl
  | ends phase => exact h.keep (by simp [phase]) (by simp) rfl rfl rfl
  | skips phase => exact h.keep (by simp [phase]) (by simp [phase]) rfl rfl rfl
  | dials phase ip =>
    have hfound := h.found
    rw [if_neg (by simp [phase])] at hfound
    exact ⟨by simpa using hfound, h.reported.trans (List.sublist_append_left _ _), fun _ =>
      ⟨s.dialled, rfl, h.reported⟩⟩
  | connecting phase => exact h.keep (by simp [phase]) (by simp [phase]) rfl rfl rfl
  | refused phase => exact h.keep (by simp [phase]) (by simp) rfl rfl rfl
  | connected phase => exact h.keep (by simp [phase]) (by simp [phase]) rfl rfl rfl
  | registering phase => exact h.keep (by simp [phase]) (by simp [phase]) rfl rfl rfl
  | rejected phase => exact h.keep (by simp [phase]) (by simp) rfl rfl rfl
  | registered phase => exact h.keep (by simp [phase]) (by simp [phase]) rfl rfl rfl
  | asks phase =>
    have hq := (s.startQuery_queried (os.millis 0)).1
    exact h.keep (by rw [hq.phase]) (fun hp => ⟨by rwa [hq.phase] at hp, hq.currentIp⟩) hq.found hq.dialled hq.reports
  | asking phase _ st s₁ polled =>
    have hq := (pollQuery_queried polled).1
    exact h.keep (by rw [hq.phase]) (fun hp => ⟨by rwa [hq.phase] at hp, hq.currentIp⟩) hq.found hq.dialled hq.reports
  | drops phase _ st s₁ polled =>
    have hq := (pollQuery_queried polled).1
    exact h.keep (by simp [phase]) (by simp) hq.found hq.dialled hq.reports
  | answered phase _ st s₁ polled =>
    have hq := (pollQuery_queried polled).1
    rcases s₁.finishQuery_cases with ⟨-, heq⟩ | ⟨-, heq⟩
    · rw [heq]
      exact h.keep (by rw [hq.phase]) (fun hp => ⟨by rwa [hq.phase] at hp, hq.currentIp⟩) hq.found hq.dialled
        hq.reports
    · obtain ⟨before, hdialled, hbefore⟩ := h.current (Or.inr (Or.inr phase))
      have hfound := h.found
      rw [if_neg (by simp [phase])] at hfound
      rw [heq]
      refine ⟨?_, ?_, by simp⟩
      · simp only [if_true, List.length_append, List.length_singleton, hq.found, hq.reports]
        omega
      · simp only [List.map_append, List.map_singleton, hq.reports, hq.dialled, hdialled]
        rw [show s₁.printDevice.ip = s.currentIp from hq.currentIp]
        exact hbefore.append (List.Sublist.refl _)
  | closing phase => exact h.keep (by simp [phase]) (by simp [phase]) rfl rfl rfl
  | closed phase =>
    have hfound := h.found
    rw [if_pos phase] at hfound
    exact ⟨by simpa using hfound, h.reported, by simp⟩

theorem counted_step (h : Counted s) (a : Act) : Counted (step lan s a) := by
  cases a with
  | deliver bs => exact ⟨h.found, h.reported, h.current⟩
  | loop os => exact counted_loop h (loop_cases lan os s)

theorem counted_setup (began configured : Bool) : Counted (setup {} began configured) := by
  have hphase : (setup {} began configured).phase = .waitEthernet ∨ (setup {} began configured).phase = .done := by
    revert began configured
    decide
  refine ⟨?_, List.Sublist.refl _, fun hwork => ?_⟩
  · rcases hphase with hp | hp <;> rw [hp] <;> rfl
  · rcases hphase with hp | hp <;> rw [hp] at hwork <;> exact absurd hwork (by decide)

/-- A network with three host bits. -/
def smallLan : Lan where
  localIP := .ofOctets 192 168 1 2
  subnetMask := .ofOctets 255 255 255 248
  gateway := .ofOctets 192 168 1 1

/-- Every connection is refused. -/
def refusals : List Act := List.replicate 12 (.loop { poll := { soError := 111 } })

end LanInventory

end ControlLogix
