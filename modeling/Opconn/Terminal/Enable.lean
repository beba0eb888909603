import Opconn.Terminal.UartRing

/-!
# Enabling a terminal server

`ts_enable` checks a configuration, copies it over that of the serial port, allocates the receive
buffers and sets up the socket.  The check for a conflict compares with the ports of all servers,
that of the serial port itself included, and nothing is taken back when a step behind the copy
fails.
-/

namespace Opconn.Terminal

/-- The values of `cs_status` that `ts_enable` and its checks return. -/
inductive CsStatus where
  | ok
  | resource
  | param
  | conflict
  | notSupport
  | error
deriving DecidableEq, Repr

/-- `uart_config_t`. -/
structure UartConfig where
  uartId : UInt8
  dataBits : UInt8
  stopBits : UInt8
  flowControl : UInt8
  parity : UInt32
  duplex : UInt32
  mode : UInt32
  baudRate : Int
deriving DecidableEq, Repr

/-- `term_server_config_t`; `other` are the fields that are only copied. -/
structure TermServerConfig (ρ : Type) where
  uartCfg : UartConfig
  protoType : UInt32
  protoPort : UInt32
  clientTimeout : UInt32
  maxPayload : UInt32
  minPayload : UInt32
  maxResTime : UInt32
  serverFd : Int
  clientFd : Int
  enableFlag : UInt32
  pBuf : Nat → Option Nat
  other : ρ

/-- `terminal_server_cfg` and the buffers that are allocated. -/
structure Servers (ρ : Type) where
  cfg : TermId → TermServerConfig ρ
  allocated : List Nat

/-- What the system answers: the address of each buffer, the descriptor of the socket, and whether
the calls that set it up succeed. -/
structure EnableEnv where
  malloc : Nat → Option Nat
  socket : Int
  setsockopt : Bool
  bind : Bool
  listen : Bool

/-! ### The checks -/

/-- `TERM_SERV_ENABLE_FLAG`. -/
def termServEnableFlag : UInt32 := 0x5A

/-- `IPPROTO_TCP`. -/
def ipprotoTcp : UInt32 := 6

/-- `IPPROTO_UDP`. -/
def ipprotoUdp : UInt32 := 17

/-- `MAX_RING_BUF_NUM`. -/
def ringBufNum : Nat := 16

/-- `UART_TO_TERM_SERV` as an index of `terminal_server_cfg`. -/
def uartToTermServ (uart : UInt8) : Option TermId :=
  if h : uart.toNat - 1 < 4 ∧ uart ≠ 0 then some ⟨uart.toNat - 1, h.1⟩ else none

/-- `ts_uart_id_check`. -/
def tsUartIdCheck (uart : UInt8) : CsStatus := if 1 ≤ uart ∧ uart ≤ 4 then .ok else .param

/-- `check_uart_cfg`. -/
def checkUartCfg (c : UartConfig) : CsStatus :=
  if tsUartIdCheck c.uartId ≠ .ok then .notSupport
  else if 115200 < c.baudRate ∨ c.baudRate < 300 then .notSupport
  else if c.dataBits ≠ 8 then .notSupport
  else if 2 < c.stopBits ∨ c.stopBits < 1 then .notSupport
  else if 2 < c.parity then .notSupport
  else if c.duplex ≠ 1 then .notSupport
  else if c.mode ≠ 1 then .notSupport
  else .ok

section Enable

variable {ρ : Type}

/-- Another server, or the same one, has this port and this protocol. -/
def portInUse (servers : TermId → TermServerConfig ρ) (c : TermServerConfig ρ) : Bool :=
  (List.finRange 4).any fun i =>
    (servers i).protoPort = c.protoPort && (servers i).protoType = c.protoType

/-- `check_sock_cfg`. -/
def checkSockCfg (servers : TermId → TermServerConfig ρ) (c : TermServerConfig ρ) : CsStatus :=
  if c.protoType ≠ ipprotoTcp ∧ c.protoType ≠ ipprotoUdp then .notSupport
  else if 65535 < c.protoPort ∨ c.protoPort < 1024 then .notSupport
  else if 65535 < c.clientTimeout then .notSupport
  else if 1400 < c.maxPayload ∨ c.maxPayload < 1024 then .notSupport
  else if c.maxPayload < c.minPayload ∨ c.minPayload < 40 then .notSupport
  else if c.maxResTime < 25 ∨ 1000 < c.maxResTime then .notSupport
  else if portInUse servers c then .conflict
  else .ok

/-! ### The steps behind the checks -/

def Servers.store (s : Servers ρ) (t : TermId) (c : TermServerConfig ρ) : Servers ρ :=
  { s with cfg := Function.update s.cfg t c }

/-- The `i`-th receive buffer of a server, `NULL` if there was no memory. -/
def Servers.setBuf (s : Servers ρ) (t : TermId) (i : Nat) (p : Option Nat) : Servers ρ where
  cfg := Function.update s.cfg t { s.cfg t with pBuf := Function.update (s.cfg t).pBuf i p }
  allocated := s.allocated ++ p.toList

def Servers.setServerFd (s : Servers ρ) (t : TermId) (fd : Int) : Servers ρ :=
  s.store t { s.cfg t with serverFd := fd }

def Servers.setClientFd (s : Servers ρ) (t : TermId) (fd : Int) : Servers ρ :=
  s.store t { s.cfg t with clientFd := fd }

def Servers.setEnabled (s : Servers ρ) (t : TermId) : Servers ρ :=
  s.store t { s.cfg t with enableFlag := termServEnableFlag }

/-- The loop that allocates the receive buffers. -/
def initRingBuf (env : EnableEnv) (t : TermId) : Nat → Nat → Servers ρ → Bool × Servers ρ
  | 0, _, s => (true, s)
  | n + 1, i, s =>
    if env.malloc i = none then (false, s.setBuf t i (env.malloc i))
    else initRingBuf env t n (i + 1) (s.setBuf t i (env.malloc i))

/-- `ts_tcp_socket_setup`. -/
def tsTcpSocketSetup (env : EnableEnv) (t : TermId) (s : Servers ρ) : CsStatus × Servers ρ :=
  let s := (s.setClientFd t (-1)).setServerFd t env.socket
  if env.socket < 0 then (.error, s)
  -- the socket is closed here, and `server_fd` keeps its number
  else if env.setsockopt = false then (.error, s)
  else if env.bind = false then (.error, s.setServerFd t (-1))
  else if env.listen = false then (.error, s.setServerFd t (-1))
  else (.ok, s)

/-- `ts_udp_socket_setup`, which does not look at what `setsockopt` returns. -/
def tsUdpSocketSetup (env : EnableEnv) (t : TermId) (s : Servers ρ) : CsStatus × Servers ρ :=
  let s := s.setServerFd t env.socket
  if env.socket < 0 then (.error, s)
  else if env.bind = false then (.error, s.setServerFd t (-1))
  else (.ok, s)

/-- The socket of the protocol; no third one passes `check_sock_cfg`. -/
def socketSetup (env : EnableEnv) (t : TermId) (c : TermServerConfig ρ) (s : Servers ρ) :
    CsStatus × Servers ρ :=
  if c.protoType = ipprotoTcp then tsTcpSocketSetup env t s else tsUdpSocketSetup env t s

/-- `ts_enable` from the sockets on. -/
def enableSocket (env : EnableEnv) (t : TermId) (c : TermServerConfig ρ) (s : Servers ρ) :
    CsStatus × Servers ρ :=
  let r := socketSetup env t c s
  if r.1 = .ok then (r.1, r.2.setEnabled t) else r

/-- `ts_enable` from the copy on. -/
def enableChecked (env : EnableEnv) (t : TermId) (c : TermServerConfig ρ) (s : Servers ρ) :
    CsStatus × Servers ρ :=
  let r := initRingBuf env t ringBufNum 0 (s.store t c)
  if r.1 then enableSocket env t c r.2 else (.resource, r.2)

/-- `ts_enable`; `none` when it looks behind the end of `terminal_server_cfg`. -/
def tsEnable (env : EnableEnv) (s : Servers ρ) :
    Option (TermServerConfig ρ) → Option (CsStatus × Servers ρ)
  | none => some (.param, s)
  | some c =>
    (uartToTermServ c.uartCfg.uartId).map fun t =>
      if (s.cfg t).enableFlag = termServEnableFlag then (.conflict, s)
      else if checkUartCfg c.uartCfg ≠ .ok then (.param, s)
      else if checkSockCfg s.cfg c ≠ .ok then (.param, s)
      else enableChecked env t c s

/-! ### What an error should leave -/

/-- The checks let a configuration through, and its serial port is this one. -/
structure Admitted (s : Servers ρ) (c : TermServerConfig ρ) (t : TermId) : Prop where
  uart : uartToTermServ c.uartCfg.uartId = some t
  disabled : (s.cfg t).enableFlag ≠ termServEnableFlag
  uartCfg : checkUartCfg c.uartCfg = .ok
  sockCfg : checkSockCfg s.cfg c = .ok

/-- Nothing fails behind the checks. -/
structure Provided (env : EnableEnv) (c : TermServerConfig ρ) : Prop where
  malloc : ∀ i < ringBufNum, env.malloc i ≠ none
  socket : 0 ≤ env.socket
  bind : env.bind = true
  tcp : c.protoType = ipprotoTcp → env.setsockopt = true ∧ env.listen = true

/-- The servers are as before, no buffer is left allocated, and a configuration that the checks let
through is not refused the next time. -/
structure Undone (s s' : Servers ρ) (c : TermServerConfig ρ) : Prop where
  cfg : s'.cfg = s.cfg
  allocated : s'.allocated = s.allocated
  again : ∀ t, Admitted s c t → Admitted s' c t

/-- An error leaves nothing behind. -/
def ErrorUndone (env : EnableEnv) (s : Servers ρ) (c : TermServerConfig ρ) : Prop :=
  ∀ status s', tsEnable env s (some c) = some (status, s') → status ≠ .ok → Undone s s' c

/-! ### The steps -/

/-- The port and the protocol of a configuration are those stored for its serial port. -/
structure HoldsPort (s : Servers ρ) (t : TermId) (c : TermServerConfig ρ) : Prop where
  port : (s.cfg t).protoPort = c.protoPort
  type : (s.cfg t).protoType = c.protoType

section Holds

variable {s : Servers ρ} {t : TermId} {c : TermServerConfig ρ}

theorem holdsPort_store {c' : TermServerConfig ρ} (hport : c'.protoPort = c.protoPort)
    (htype : c'.protoType = c.protoType) : HoldsPort (s.store t c') t c := by
  have hstored : (s.store t c').cfg t = c' := by simp only [Servers.store, Function.update_self]
  exact ⟨by rwa [hstored], by rwa [hstored]⟩

theorem HoldsPort.setBuf (h : HoldsPort s t c) (i : Nat) (p : Option Nat) :
    HoldsPort (s.setBuf t i p) t c := by
  have hstored : (s.setBuf t i p).cfg t =
      { s.cfg t with pBuf := Function.update (s.cfg t).pBuf i p } := by
    simp only [Servers.setBuf, Function.update_self]
  exact ⟨by rw [hstored]; exact h.port, by rw [hstored]; exact h.type⟩

theorem HoldsPort.setServerFd (h : HoldsPort s t c) (fd : Int) :
    HoldsPort (s.setServerFd t fd) t c :=
  holdsPort_store h.port h.type

theorem HoldsPort.setClientFd (h : HoldsPort s t c) (fd : Int) :
    HoldsPort (s.setClientFd t fd) t c :=
  holdsPort_store h.port h.type

theorem HoldsPort.setEnabled (h : HoldsPort s t c) : HoldsPort (s.setEnabled t) t c :=
  holdsPort_store h.port h.type

/-- Such a configuration is in conflict with itself. -/
theorem HoldsPort.conflict (h : HoldsPort s t c) : checkSockCfg s.cfg c ≠ .ok := by
  have huse : portInUse s.cfg c = true := by
    rw [portInUse, List.any_eq_true]
    refine ⟨t, List.mem_finRange t, ?_⟩
    rw [h.port, h.type, Bool.and_eq_true]
    exact ⟨decide_eq_true rfl, decide_eq_true rfl⟩
  rw [checkSockCfg, if_pos huse]
  repeat' split
  all_goals exact CsStatus.noConfusion

theorem HoldsPort.initRingBuf (h : HoldsPort s t c) (env : EnableEnv) (n i : Nat) :
    HoldsPort (initRingBuf env t n i s).2 t c := by
  induction n generalizing i s with
  | zero => exact h
  | succ n ih =>
    rw [Terminal.initRingBuf]
    split
    · exact h.setBuf i _
    · exact ih (h.setBuf i _) (i + 1)

theorem HoldsPort.socketSetup (h : HoldsPort s t c) (env : EnableEnv) :
    HoldsPort (socketSetup env t c s).2 t c := by
  have htcp := (h.setClientFd (-1)).setServerFd env.socket
  have hudp := h.setServerFd env.socket
  rw [Terminal.socketSetup, tsTcpSocketSetup, tsUdpSocketSetup]
  repeat' split
  · exact htcp
  · exact htcp
  · exact htcp.setServerFd (-1)
  · exact htcp.setServerFd (-1)
  · exact htcp
  · exact hudp
  · exact hudp.setServerFd (-1)
  · exact hudp

/-- What is left behind the copy holds the port, whatever fails. -/
theorem holdsPort_enableChecked (env : EnableEnv) :
    HoldsPort (enableChecked env t c s).2 t c := by
  have hstored : HoldsPort (s.store t c) t c := holdsPort_store rfl rfl
  have hbuf := hstored.initRingBuf env ringBufNum 0
  have hsocket := hbuf.socketSetup env
  rw [enableChecked, enableSocket]
  repeat' split
  · exact hsocket.setEnabled
  · exact hsocket
  · exact hbuf

end Holds

/-- The buffers are allocated exactly when none of them is missing. -/
theorem initRingBuf_iff (env : EnableEnv) (t : TermId) (n i : Nat) (s : Servers ρ) :
    (initRingBuf env t n i s).1 = true ↔ ∀ j, i ≤ j → j < i + n → env.malloc j ≠ none := by
  induction n generalizing i s with
  | zero => exact iff_of_true rfl (fun j hle hlt => absurd hlt (Nat.not_lt.mpr hle))
  | succ n ih =>
    rw [initRingBuf]
    split
    · rename_i hnone
      refine iff_of_false Bool.false_ne_true ?_
      intro hall
      exact hall i (Nat.le_refl i) (by omega) hnone
    · rename_i hsome
      rw [ih]
      constructor
      · intro h j hle hlt
        rcases Nat.eq_or_lt_of_le hle with rfl | hgt
        · exact hsome
        · exact h j hgt (by omega)
      · intro h j hle hlt
        exact h j (by omega) (by omega)

theorem tsTcpSocketSetup_iff (env : EnableEnv) (t : TermId) (s : Servers ρ) :
    (tsTcpSocketSetup env t s).1 = .ok ↔
      0 ≤ env.socket ∧ env.setsockopt = true ∧ env.bind = true ∧ env.listen = true := by
  rw [tsTcpSocketSetup]
  by_cases hsocket : env.socket < 0
  · rw [if_pos hsocket]
    exact iff_of_false CsStatus.noConfusion (fun h => Int.not_lt.mpr h.1 hsocket)
  · have hle : 0 ≤ env.socket := Int.not_lt.mp hsocket
    rw [if_neg hsocket]
    cases env.setsockopt <;> cases env.bind <;> cases env.listen <;> simp [hle]

theorem tsUdpSocketSetup_iff (env : EnableEnv) (t : TermId) (s : Servers ρ) :
    (tsUdpSocketSetup env t s).1 = .ok ↔ 0 ≤ env.socket ∧ env.bind = true := by
  rw [tsUdpSocketSetup]
  by_cases hsocket : env.socket < 0
  · rw [if_pos hsocket]
    exact iff_of_false CsStatus.noConfusion (fun h => Int.not_lt.mpr h.1 hsocket)
  · have hle : 0 ≤ env.socket := Int.not_lt.mp hsocket
    rw [if_neg hsocket]
    cases env.bind <;> simp [hle]

theorem socketSetup_iff (env : EnableEnv) (t : TermId) (c : TermServerConfig ρ) (s : Servers ρ) :
    (socketSetup env t c s).1 = .ok ↔ 0 ≤ env.socket ∧ env.bind = true ∧
      (c.protoType = ipprotoTcp → env.setsockopt = true ∧ env.listen = true) := by
  rw [socketSetup]
  by_cases htcp : c.protoType = ipprotoTcp
  · rw [if_pos htcp, tsTcpSocketSetup_iff]
    constructor
    · rintro ⟨hsocket, hopt, hbind, hlisten⟩
      exact ⟨hsocket, hbind, fun _ => ⟨hopt, hlisten⟩⟩
    · rintro ⟨hsocket, hbind, hrest⟩
      exact ⟨hsocket, (hrest htcp).1, hbind, (hrest htcp).2⟩
  · rw [if_neg htcp, tsUdpSocketSetup_iff]
    constructor
    · rintro ⟨hsocket, hbind⟩
      exact ⟨hsocket, hbind, fun h => absurd h htcp⟩
    · rintro ⟨hsocket, hbind, -⟩
      exact ⟨hsocket, hbind⟩

theorem enableSocket_status (env : EnableEnv) (t : TermId) (c : TermServerConfig ρ)
    (s : Servers ρ) : (enableSocket env t c s).1 = (socketSetup env t c s).1 := by
  rw [enableSocket]
  split <;> rfl

/-- The steps behind the checks succeed together or not at all. -/
theorem enableChecked_iff (env : EnableEnv) (t : TermId) (c : TermServerConfig ρ) (s : Servers ρ) :
    (enableChecked env t c s).1 = .ok ↔ Provided env c := by
  have hbuf := initRingBuf_iff env t ringBufNum 0 (s.store t c)
  rw [Nat.zero_add] at hbuf
  rw [enableChecked]
  by_cases hmem : (initRingBuf env t ringBufNum 0 (s.store t c)).1 = true
  · rw [if_pos hmem, enableSocket_status, socketSetup_iff]
    constructor
    · rintro ⟨hsocket, hbind, htcp⟩
      exact ⟨fun i hi => hbuf.mp hmem i (Nat.zero_le i) hi, hsocket, hbind, htcp⟩
    · intro h
      exact ⟨h.socket, h.bind, h.tcp⟩
  · rw [if_neg hmem]
    refine iff_of_false CsStatus.noConfusion ?_
    intro h
    exact hmem (hbuf.mpr (fun i _ hi => h.malloc i hi))

theorem Undone.refl (s : Servers ρ) (c : TermServerConfig ρ) : Undone s s c :=
  ⟨rfl, rfl, fun _ h => h⟩

/-- A configuration that the checks let through is taken over. -/
theorem tsEnable_of_admitted (env : EnableEnv) {s : Servers ρ} {c : TermServerConfig ρ} {t : TermId}
    (h : Admitted s c t) : tsEnable env s (some c) = some (enableChecked env t c s) := by
  rw [tsEnable, h.uart, Option.map_some, if_neg h.disabled, if_neg (not_not_intro h.uartCfg),
    if_neg (not_not_intro h.sockCfg)]

/-- What the checks refuse changes nothing. -/
theorem tsEnable_of_refused (env : EnableEnv) {s s' : Servers ρ} {c : TermServerConfig ρ}
    {status : CsStatus} (h : ∀ t, ¬Admitted s c t)
    (hcall : tsEnable env s (some c) = some (status, s')) : s' = s := by
  rw [tsEnable, Option.map_eq_some_iff] at hcall
  obtain ⟨t, huart, hres⟩ := hcall
  by_cases henabled : (s.cfg t).enableFlag = termServEnableFlag
  · rw [if_pos henabled] at hres
    exact (Prod.mk.inj hres).2.symm
  · rw [if_neg henabled] at hres
    by_cases hcfg : checkUartCfg c.uartCfg ≠ .ok
    · rw [if_pos hcfg] at hres
      exact (Prod.mk.inj hres).2.symm
    · rw [if_neg hcfg] at hres
      by_cases hsock : checkSockCfg s.cfg c ≠ .ok
      · rw [if_pos hsock] at hres
        exact (Prod.mk.inj hres).2.symm
      · exact absurd ⟨huart, henabled, not_not.mp hcfg, not_not.mp hsock⟩ (h t)

/-- **Errors of enabling.**  An error leaves the servers, the buffers and the later calls as they were
exactly when the checks refuse the configuration or nothing fails behind them. -/
theorem errorUndone_iff (env : EnableEnv) (s : Servers ρ) (c : TermServerConfig ρ) :
    ErrorUndone env s c ↔ ∀ t, Admitted s c t → Provided env c := by
  constructor
  · intro h t hadmitted
    by_contra hmissing
    have hstatus : (enableChecked env t c s).1 ≠ .ok :=
      fun hok => hmissing ((enableChecked_iff env t c s).mp hok)
    have hundone := h _ _ (tsEnable_of_admitted env hadmitted) hstatus
    exact (holdsPort_enableChecked env).conflict (hundone.again t hadmitted).sockCfg
  · intro h status s' hcall hstatus
    by_cases hadmitted : ∃ t, Admitted s c t
    · obtain ⟨t, hadmitted⟩ := hadmitted
      rw [tsEnable_of_admitted env hadmitted] at hcall
      have hok := (enableChecked_iff env t c s).mpr (h t hadmitted)
      rw [Option.some.inj hcall] at hok
      exact absurd hok hstatus
    · rw [tsEnable_of_refused env (not_exists.mp hadmitted) hcall]
      exact Undone.refl s c

end Enable

/-- A server that is disabled. -/
def disabledServer : TermServerConfig Unit where
  uartCfg := ⟨0, 0, 0, 0, 0, 0, 0, 0⟩
  protoType := 0
  protoPort := 0
  clientTimeout := 0
  maxPayload := 0
  minPayload := 0
  maxResTime := 0
  serverFd := -1
  clientFd := -1
  enableFlag := 0
  pBuf _ := none
  other := ()

/-- A configuration for the first serial port. -/
def firstServer : TermServerConfig Unit :=
  { disabledServer with
    uartCfg := ⟨1, 8, 1, 0, 0, 1, 1, 9600⟩
    protoType := ipprotoTcp
    protoPort := 3001
    maxPayload := 1024
    minPayload := 40
    maxResTime := 1000 }

/-- There is memory for one buffer only. -/
theorem second_buffer_missing :
    ¬ErrorUndone ⟨fun i => if i = 0 then some 1 else none, 5, true, true, true⟩
      ⟨fun _ => disabledServer, []⟩ firstServer := by
  intro h
  have hundone := h .resource _ rfl CsStatus.noConfusion
  exact absurd hundone.allocated (by decide)

end Opconn.Terminal
