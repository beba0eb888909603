import Opconn.Exchange.Pal
import Opconn.Lib.Runs
import Opconn.Vos.ConfigValues

/-!
# The settings of the UART1 management

The master CPU sets four event flags and the IGMP mode, which are kept in the configuration,
asks for the IGMP mode, and `AdmPonUart1CfgInit` reads the settings back.  Of the six calls that
are to read, five call `vosConfigUInt32Set` instead of `vosConfigUInt32Get`: they store what was
meant as a default and take the return code 0 for the value.  `lastSet` is the bookkeeping for
the properties.
-/

namespace Opconn.Exchange.Uart1

open Opconn.Vos Runs

/-! ### Settings -/

/-- The events that can be enabled, by their flags. -/
inductive Event where
  | link | nack | register | oamtransmit
deriving DecidableEq

/-- `OPL_LINK_FAULT_ALARM`, `OPL_MPCP_NACK_EVENT`, `OPL_AUTHORIZATION_EVENT` and
`OPL_OAM_RECEIVE_EVENT`. -/
def eventOf (type : UInt8) : Option Event :=
  if type = 5 then some .link
  else if type = 0x8f then some .nack
  else if type = 0x89 then some .register
  else if type = 0x93 then some .oamtransmit
  else none

def text (s : String) : CStr := s.toList.map fun c => c.toNat.toUInt8

/-- `UART1_CFG` and `UART1_CFG_GENERAL_SEC`. -/
def uart1Cfg : CStr := text "/cfg/uart1.conf"
def uart1CfgGeneralSec : CStr := text "Uart1_sec"

/-- `UART1_CFG_LINK_EVENT_EN_KEY` and so on. -/
def Event.key : Event → CStr
  | .link => text "U_linkevent"
  | .nack => text "U_nackevent"
  | .register => text "U_regevent"
  | .oamtransmit => text "U_oamevent"

/-- `CFGFILE_MULTICAST`, `CFGSECTION_MULTICAST_IGMP_MANAGEMENT` and
`CFGKEY_MULTICAST_IGMP_MANAGEMENT_IGMP_MODE`. -/
def cfgfileMulticast : CStr := text "/cfg/multicast.conf"
def cfgsectionIgmpManagement : CStr := text "IGMP"
def cfgkeyIgmpMode : CStr := text "igmp_mode"

/-- `CFG_PORT_CFG`, the section of port 1 and `CFG_PORT_LEARNING`. -/
def cfgPortCfg : CStr := text "/cfg/port.conf"
def cfgPortSection : CStr := text "Port0001"
def cfgPortLearning : CStr := text "Portlearning"

/-- What is set. -/
inductive Setting where
  | event (e : Event)
  | igmp
deriving DecidableEq

namespace Setting

def fname : Setting → CStr
  | event _ => uart1Cfg
  | igmp => cfgfileMulticast

def sectionName : Setting → CStr
  | event _ => uart1CfgGeneralSec
  | igmp => cfgsectionIgmpManagement

def key : Setting → CStr
  | event e => e.key
  | igmp => cfgkeyIgmpMode

/-- The default: `opl_true` for an event, `opl_false` for the mode. -/
def default : Setting → UInt8
  | event _ => 1
  | igmp => 0

end Setting

/-- The store, the flags `link_event_enbale`, `nack_event_enbale`, `register_event_enbale` and
`oamtransmitevent`, and whether multicast was last enabled or disabled in the switch. -/
structure State where
  cfg : Config
  enbale : Event → UInt8
  multicast : Bool
  lastSet : Setting → Option UInt8

/-! ### Requests -/

variable (bigEndian : Bool)

/-- `vosConfigValueGet`, `vosConfigUInt32Get` and `vosConfigUInt32Set` at the key of a setting. -/
def storedText (cfg : Config) (x : Setting) : Option CStr :=
  vosConfigValueGet bigEndian cfg x.fname x.sectionName x.key

def settingGet (cfg : Config) (x : Setting) (defaultValue : UInt32) : UInt32 :=
  vosConfigUInt32Get bigEndian cfg x.fname x.sectionName x.key defaultValue

def settingSet (cfg : Config) (x : Setting) (value : UInt32) : Option (Config × Int) :=
  vosConfigUInt32Set bigEndian cfg x.fname x.sectionName x.key value

/-- `AdmPonEventEnable`. -/
def admPonEventEnable (s : State) (type enable : UInt8) : Option (State × Status) :=
  match eventOf type with
  | none => some (s, .ok)
  | some e => do
    let (cfg, _) ← settingSet bigEndian s.cfg (.event e) enable.toUInt32
    some ({ s with cfg, enbale := Function.update s.enbale e enable }, .ok)

/-- `AdmPonIgmpEnableSet`. -/
def admPonIgmpEnableSet (s : State) (enable : UInt8) : Option (State × Status) :=
  if enable = 1 ∨ enable = 0 then do
    let (cfg, _) ← settingSet bigEndian s.cfg .igmp enable.toUInt32
    some ({ s with cfg, multicast := enable = 1 }, .ok)
  else some (s, .error)

/-- An acknowledgement of type `ADM_ACK_PAR_PACKET_t`, with `opl_ok`. -/
def admAckPacket (funcIndex : UInt16) (pData : List UInt8) : List UInt8 :=
  packUint16 funcIndex ++ [0, 0, 0, 0] ++ packUint16 pData.length.toUInt16 ++ pData

/-- `ADM_PON_IGMP_ENABLE_GET_ACK` and `ADM_PON_LEARNING_ENABLE_GET_ACK`. -/
def admPonIgmpEnableGetAck : UInt16 := 31
def admPonLearningEnableGetAck : UInt16 := 33

/-- `AdmPonIgmpEnableGet`, with what it acknowledges. -/
def admPonIgmpEnableGet (s : State) : Option (State × List UInt8) := do
  let (cfg, enable) ← settingSet bigEndian s.cfg .igmp 0
  some ({ s with cfg }, admAckPacket admPonIgmpEnableGetAck [UInt8.ofInt enable])

/-- `AdmPonLearnEnableGet`, with what it acknowledges. -/
def admPonLearnEnableGet (s : State) : List UInt8 :=
  let enable := vosConfigUInt32Get bigEndian s.cfg cfgPortCfg cfgPortSection cfgPortLearning 1
  admAckPacket admPonLearningEnableGetAck [enable.toUInt8]

/-- `AdmPonUart1CfgInit`. -/
def admPonUart1CfgInit (s : State) : Option State := do
  let link := settingGet bigEndian s.cfg (.event .link) 1
  let (cfg, nack) ← settingSet bigEndian s.cfg (.event .nack) 1
  let (cfg, register) ← settingSet bigEndian cfg (.event .register) 1
  let (cfg, oamtransmit) ← settingSet bigEndian cfg (.event .oamtransmit) 1
  let (cfg, enable) ← settingSet bigEndian cfg .igmp 0
  some { s with
    cfg
    enbale := fun
      | .link => link.toUInt8
      | .nack => UInt8.ofInt nack
      | .register => UInt8.ofInt register
      | .oamtransmit => UInt8.ofInt oamtransmit
    multicast := UInt8.ofInt enable = 1 }

/-- The `Adm*Get` functions that read nothing of the configuration but the MAC address. -/
inductive Getter where
  | macId | laserEnable | version | link | uptime | extendMtuEnable | uniConfig | encryption
  | status | connection | encryptionActKey | portStats | uniPortStats | ipMc | queueLimit | clsMc
deriving DecidableEq

/-- The requests, and restarts.  `ack` is what a getter acknowledges. -/
inductive Request where
  | eventEnable (type enable : UInt8)
  | igmpEnableSet (enable : UInt8)
  | igmpEnableGet
  | learnEnableGet
  | get (function : Getter) (ack : List UInt8)
  | restart
deriving DecidableEq

/-- The state after a request and what is acknowledged; `none` where the program stops. -/
def request (s : State) : Request → Option (State × Option (List UInt8))
  | .eventEnable type enable => do
    let (s, _) ← admPonEventEnable bigEndian s type enable
    some (s, none)
  | .igmpEnableSet enable => do
    let (s, _) ← admPonIgmpEnableSet bigEndian s enable
    some (s, none)
  | .igmpEnableGet => do
    let (s, ack) ← admPonIgmpEnableGet bigEndian s
    some (s, some ack)
  | .learnEnableGet => some (s, some (admPonLearnEnableGet bigEndian s))
  | .get _ ack => some (s, some ack)
  | .restart => do
    let s ← admPonUart1CfgInit bigEndian s
    some (s, none)

/-- The settings that were last set, behind a request. -/
def record (lastSet : Setting → Option UInt8) : Request → Setting → Option UInt8
  | .eventEnable type enable =>
    match eventOf type with
    | none => lastSet
    | some e => Function.update lastSet (.event e) (some enable)
  | .igmpEnableSet enable =>
    if enable = 1 ∨ enable = 0 then Function.update lastSet .igmp (some enable) else lastSet
  | _ => lastSet

/-- A step; a program that stops stays so. -/
def step (o : Option State) (r : Request) : Option State := do
  let s ← o
  let (s', _) ← request bigEndian s r
  some { s' with lastSet := record s.lastSet r }

/-! ### Properties -/

/-- Every key has the value it had. -/
def SameStore (cfg cfg' : Config) : Prop :=
  ∀ fname name key, vosConfigValueGet bigEndian cfg' fname name key =
    vosConfigValueGet bigEndian cfg fname name key

def Request.isGet : Request → Bool
  | .igmpEnableGet | .learnEnableGet | .get _ _ => true
  | _ => false

/-- The value that a setting was last set to, or its default. -/
def State.setting (s : State) (x : Setting) : UInt8 := (s.lastSet x).getD x.default

/-- What is promised of a request. -/
structure Served (s : State) (r : Request) (s' : State) (ack : Option (List UInt8)) : Prop where
  store : r.isGet = true → SameStore bigEndian s.cfg s'.cfg
  igmpGet : r = .igmpEnableGet → ack = some (admAckPacket admPonIgmpEnableGetAck [s.setting .igmp])
  events : r = .restart → ∀ e, s'.enbale e = s.setting (.event e)
  igmp : r = .restart → s'.multicast = (s.setting .igmp = 1)

/-- What is promised of a step. -/
def Right (o : Option State) (r : Request) : Prop :=
  ∀ s ∈ o, ∀ out ∈ request bigEndian s r, Served bigEndian s r out.1 out.2

/-- The requests that go well: the IGMP mode is asked for while it is off and stored, and at a
restart it is off and the events but for the link are disabled. -/
def Request.Meets (s : State) : Request → Prop
  | .igmpEnableGet => s.setting .igmp = 0 ∧ storedText bigEndian s.cfg .igmp ≠ none
  | .restart => (∀ e, e ≠ .link → s.lastSet (.event e) = some 0) ∧ s.setting .igmp ≠ 1
  | _ => True

/-- The same of a step that returns. -/
def Guard (o : Option State) (r : Request) : Prop :=
  ∀ s ∈ o, (request bigEndian s r).isSome → r.Meets bigEndian s

/-! ### The keys -/

variable {bigEndian}

/-- Each setting has a key of its own. -/
theorem same_key_iff (x y : Setting) :
    x.fname = y.fname ∧ x.sectionName = y.sectionName ∧ x.key = y.key ↔ x = y := by
  have hfile : uart1Cfg ≠ cfgfileMulticast := by decide
  constructor
  · rintro ⟨hfname, -, hkey⟩
    cases x with
    | event e =>
      cases y with
      | event f =>
        have hinj : ∀ e f : Event, e.key = f.key → e = f := by
          intro e f
          cases e <;> cases f <;> decide
        rw [hinj e f hkey]
      | igmp => exact absurd hfname hfile
    | igmp =>
      cases y with
      | event f => exact absurd hfname hfile.symm
      | igmp => rfl
  · rintro rfl
    exact ⟨rfl, rfl, rfl⟩

/-- `cfg'` is `cfg` with the setting stored. -/
structure Stored (bigEndian : Bool) (cfg : Config) (x : Setting) (value : UInt32)
    (cfg' : Config) : Prop where
  set : ValueSet bigEndian cfg x.fname x.sectionName x.key (uintText value) cfg'
  text : ∀ y, storedText bigEndian cfg' y =
    if y = x then some (uintText value) else storedText bigEndian cfg y

theorem stored_of_settingSet {cfg cfg' : Config} (hok : ConfigOk bigEndian cfg)
    (hdatabase : cfg.database.isSome = true) {x : Setting} {value : UInt32} {rv : Int}
    (hset : settingSet bigEndian cfg x value = some (cfg', rv)) :
    rv = 0 ∧ Stored bigEndian cfg x value cfg' := by
  obtain ⟨hrv, hvalue⟩ := hok.valueSet_value hdatabase hset
  refine ⟨hrv, hvalue, ?_⟩
  intro y
  rw [storedText, hvalue.value]
  simp only [same_key_iff]
  rfl

/-! ### What a request does -/

/-- The link's flag and the IGMP mode in the store, by what was last set.  A restart and an IGMP
request may have stored the mode's default. -/
structure Inv (bigEndian : Bool) (s : State) : Prop where
  ok : ConfigOk bigEndian s.cfg
  database : s.cfg.database.isSome = true
  link : storedText bigEndian s.cfg (.event .link) =
    (s.lastSet (.event .link)).map fun v => uintText v.toUInt32
  igmp : storedText bigEndian s.cfg .igmp = (s.lastSet .igmp).map (fun v => uintText v.toUInt32) ∨
    storedText bigEndian s.cfg .igmp = some (uintText 0)

variable {s s' : State} {ack : Option (List UInt8)}

theorem Inv.stored (h : Inv bigEndian s) {cfg' : Config} {x : Setting} {value : UInt32} {rv : Int}
    (hset : settingSet bigEndian s.cfg x value = some (cfg', rv)) :
    rv = 0 ∧ Stored bigEndian s.cfg x value cfg' :=
  stored_of_settingSet h.ok h.database hset

theorem eventEnable_cases (h : Inv bigEndian s) {type enable : UInt8}
    (hreq : request bigEndian s (.eventEnable type enable) = some (s', ack)) :
    eventOf type = none ∧ s' = s ∨ ∃ e cfg, eventOf type = some e ∧
      Stored bigEndian s.cfg (.event e) enable.toUInt32 cfg ∧
      s' = { s with cfg, enbale := Function.update s.enbale e enable } := by
  obtain ⟨⟨s₁, status⟩, hhandler, heq⟩ := Option.bind_eq_some_iff.mp hreq
  cases heq
  rw [admPonEventEnable] at hhandler
  split at hhandler
  · next hnone =>
    cases hhandler
    exact .inl ⟨hnone, rfl⟩
  · next e hsome =>
    obtain ⟨⟨cfg, rv⟩, hset, heq⟩ := Option.bind_eq_some_iff.mp hhandler
    cases heq
    exact .inr ⟨e, cfg, hsome, (h.stored hset).2, rfl⟩

theorem igmpEnableSet_cases (h : Inv bigEndian s) {enable : UInt8}
    (hreq : request bigEndian s (.igmpEnableSet enable) = some (s', ack)) :
    ¬(enable = 1 ∨ enable = 0) ∧ s' = s ∨ (enable = 1 ∨ enable = 0) ∧ ∃ cfg,
      Stored bigEndian s.cfg .igmp enable.toUInt32 cfg ∧
      s' = { s with cfg, multicast := enable = 1 } := by
  obtain ⟨⟨s₁, status⟩, hhandler, heq⟩ := Option.bind_eq_some_iff.mp hreq
  cases heq
  rw [admPonIgmpEnableSet] at hhandler
  split at hhandler
  · next henable =>
    obtain ⟨⟨cfg, rv⟩, hset, heq⟩ := Option.bind_eq_some_iff.mp hhandler
    cases heq
    exact .inr ⟨henable, cfg, (h.stored hset).2, rfl⟩
  · next henable =>
    cases hhandler
    exact .inl ⟨henable, rfl⟩

/-- Asking for the IGMP mode stores that it is off, and says so. -/
theorem igmpEnableGet_spec (h : Inv bigEndian s)
    (hreq : request bigEndian s .igmpEnableGet = some (s', ack)) :
    ∃ cfg, Stored bigEndian s.cfg .igmp 0 cfg ∧ s' = { s with cfg } ∧
      ack = some (admAckPacket admPonIgmpEnableGetAck [0]) := by
  obtain ⟨⟨s₁, packet⟩, hhandler, heq⟩ := Option.bind_eq_some_iff.mp hreq
  cases heq
  obtain ⟨⟨cfg, rv⟩, hset, heq⟩ := Option.bind_eq_some_iff.mp hhandler
  cases heq
  obtain ⟨rfl, hstored⟩ := h.stored hset
  exact ⟨cfg, hstored, rfl, rfl⟩

/-- What a restart makes of the state. -/
structure Restarted (bigEndian : Bool) (s s' : State) : Prop where
  ok : ConfigOk bigEndian s'.cfg
  database : s'.cfg.database.isSome = true
  lastSet : s'.lastSet = s.lastSet
  link : storedText bigEndian s'.cfg (.event .link) = storedText bigEndian s.cfg (.event .link)
  igmp : storedText bigEndian s'.cfg .igmp = some (uintText 0)
  linkFlag : s'.enbale .link = (settingGet bigEndian s.cfg (.event .link) 1).toUInt8
  flags : ∀ e, e ≠ .link → s'.enbale e = 0
  multicast : s'.multicast = false

theorem restart_spec (h : Inv bigEndian s)
    (hreq : request bigEndian s .restart = some (s', ack)) : Restarted bigEndian s s' := by
  obtain ⟨s₁, hhandler, heq⟩ := Option.bind_eq_some_iff.mp hreq
  cases heq
  obtain ⟨⟨cfg₁, nack⟩, hnack, hhandler⟩ := Option.bind_eq_some_iff.mp hhandler
  obtain ⟨⟨cfg₂, register⟩, hregister, hhandler⟩ := Option.bind_eq_some_iff.mp hhandler
  obtain ⟨⟨cfg₃, oamtransmit⟩, hoam, hhandler⟩ := Option.bind_eq_some_iff.mp hhandler
  obtain ⟨⟨cfg₄, enable⟩, higmp, heq⟩ := Option.bind_eq_some_iff.mp hhandler
  cases heq
  obtain ⟨rfl, hstored₁⟩ := h.stored hnack
  obtain ⟨rfl, hstored₂⟩ := stored_of_settingSet hstored₁.set.ok hstored₁.set.database hregister
  obtain ⟨rfl, hstored₃⟩ := stored_of_settingSet hstored₂.set.ok hstored₂.set.database hoam
  obtain ⟨rfl, hstored₄⟩ := stored_of_settingSet hstored₃.set.ok hstored₃.set.database higmp
  refine ⟨hstored₄.set.ok, hstored₄.set.database, rfl, ?_, ?_, rfl, ?_, rfl⟩
  · rw [hstored₄.text, hstored₃.text, hstored₂.text, hstored₁.text]
    rfl
  · rw [hstored₄.text, if_pos rfl]
  · intro e he
    cases e with
    | link => exact absurd rfl he
    | nack => rfl
    | register => rfl
    | oamtransmit => rfl

/-! ### The invariant -/

/-- A state whose store keeps the two settings keeps the invariant. -/
theorem Inv.of_texts (h : Inv bigEndian s) (hok : ConfigOk bigEndian s'.cfg)
    (hdatabase : s'.cfg.database.isSome = true)
    (hlink : storedText bigEndian s'.cfg (.event .link) = storedText bigEndian s.cfg (.event .link))
    (higmp : storedText bigEndian s'.cfg .igmp = storedText bigEndian s.cfg .igmp ∨
      storedText bigEndian s'.cfg .igmp = some (uintText 0))
    (hlast : s'.lastSet = s.lastSet) : Inv bigEndian s' := by
  refine ⟨hok, hdatabase, ?_, ?_⟩
  · rw [hlink, hlast]
    exact h.link
  · rcases higmp with higmp | higmp
    · rw [higmp, hlast]
      exact h.igmp
    · exact .inr higmp

/-- A setting that is stored is the one that was last set. -/
theorem Inv.of_stored (h : Inv bigEndian s) {x : Setting} {value : UInt8} {cfg : Config}
    (hstored : Stored bigEndian s.cfg x value.toUInt32 cfg) (hcfg : s'.cfg = cfg)
    (hlast : s'.lastSet = Function.update s.lastSet x (some value)) : Inv bigEndian s' := by
  subst hcfg
  refine ⟨hstored.set.ok, hstored.set.database, ?_, ?_⟩
  · rw [hstored.text, hlast, Function.update_apply]
    split
    · rfl
    · exact h.link
  · rw [hstored.text, hlast, Function.update_apply]
    split
    · exact .inl rfl
    · exact h.igmp

theorem Inv.request (h : Inv bigEndian s) {r : Request}
    (hreq : request bigEndian s r = some (s', ack)) :
    Inv bigEndian { s' with lastSet := record s.lastSet r } := by
  cases r with
  | eventEnable type enable =>
    rcases eventEnable_cases h hreq with ⟨hnone, rfl⟩ | ⟨e, cfg, hsome, hstored, rfl⟩
    · simp only [record, hnone]
      exact h
    · refine h.of_stored hstored rfl ?_
      simp only [record, hsome]
  | igmpEnableSet enable =>
    rcases igmpEnableSet_cases h hreq with ⟨henable, rfl⟩ | ⟨henable, cfg, hstored, rfl⟩
    · simp only [record, if_neg henable]
      exact h
    · refine h.of_stored hstored rfl ?_
      simp only [record, if_pos henable]
  | igmpEnableGet =>
    obtain ⟨cfg, hstored, rfl, -⟩ := igmpEnableGet_spec h hreq
    refine h.of_texts hstored.set.ok hstored.set.database ?_ (.inr ?_) rfl
    · exact hstored.text _
    · exact hstored.text _
  | learnEnableGet =>
    cases hreq
    exact h
  | get function packet =>
    cases hreq
    exact h
  | restart =>
    have hrestart := restart_spec h hreq
    exact h.of_texts hrestart.ok hrestart.database hrestart.link (.inr hrestart.igmp) rfl

/-! ### What is promised -/

/-- The link's flag is read back. -/
theorem Inv.linkFlag (h : Inv bigEndian s) :
    (settingGet bigEndian s.cfg (.event .link) 1).toUInt8 = s.setting (.event .link) := by
  have hlink := h.link
  rw [storedText] at hlink
  rw [settingGet, vosConfigUInt32Get, hlink, State.setting]
  cases s.lastSet (.event .link) with
  | none => rfl
  | some v =>
    simp only [Option.map_some, strtoul_uintText, Option.getD_some]
    exact UInt8.toUInt8_toUInt32 v

theorem admAckPacket_inj {funcIndex : UInt16} {a b : UInt8}
    (h : admAckPacket funcIndex [a] = admAckPacket funcIndex [b]) : a = b := by
  have hdata : [a] = [b] := List.append_cancel_left h
  exact List.singleton_inj.mp hdata

/-- While the mode was last set to be off, what is stored for it, if anything, is a zero. -/
theorem Inv.igmp_off (h : Inv bigEndian s) (hoff : s.setting .igmp = 0)
    (hstored : storedText bigEndian s.cfg .igmp ≠ none) :
    storedText bigEndian s.cfg .igmp = some (uintText 0) := by
  rcases h.igmp with heq | heq
  · rw [State.setting] at hoff
    cases hlast : s.lastSet .igmp with
    | none =>
      rw [hlast] at heq
      exact absurd heq hstored
    | some v =>
      rw [hlast, Option.getD_some] at hoff
      rw [heq, hlast, hoff]
      rfl
  · exact heq

/-- **Asking for the IGMP mode** tells it and changes nothing exactly when it is off and stored. -/
theorem Inv.igmpEnableGet_iff (h : Inv bigEndian s)
    (hreq : Uart1.request bigEndian s .igmpEnableGet = some (s', ack)) :
    Served bigEndian s .igmpEnableGet s' ack ↔ Request.igmpEnableGet.Meets bigEndian s := by
  obtain ⟨cfg, hset, rfl, rfl⟩ := igmpEnableGet_spec h hreq
  constructor
  · intro hserved
    refine ⟨(admAckPacket_inj (Option.some.inj (hserved.igmpGet rfl))).symm, ?_⟩
    intro hnone
    have hsame : storedText bigEndian cfg .igmp = storedText bigEndian s.cfg .igmp :=
      hserved.store rfl _ _ _
    rw [hset.text, if_pos rfl, hnone] at hsame
    cases hsame
  · rintro ⟨hoff, hstored⟩
    have hzero := h.igmp_off hoff hstored
    refine ⟨fun _ => ?_, fun _ => ?_, nofun, nofun⟩
    · intro fname name key
      rw [hset.set.value]
      split
      · next heq =>
        obtain ⟨rfl, rfl, rfl⟩ := heq
        exact hzero.symm
      · rfl
    · rw [hoff]

/-- **A restart** reads the settings back exactly when all that it does not read are off. -/
theorem Inv.restart_iff (h : Inv bigEndian s)
    (hreq : Uart1.request bigEndian s .restart = some (s', ack)) :
    Served bigEndian s .restart s' ack ↔ Request.restart.Meets bigEndian s := by
  have hrestart := restart_spec h hreq
  constructor
  · intro hserved
    refine ⟨?_, ?_⟩
    · intro e he
      have hflag := hserved.events rfl e
      rw [hrestart.flags e he, State.setting] at hflag
      cases hlast : s.lastSet (.event e) with
      | none =>
        rw [hlast] at hflag
        cases hflag
      | some v =>
        rw [hlast, Option.getD_some] at hflag
        rw [hflag]
    · intro hon
      have hmode := hserved.igmp rfl
      rw [hrestart.multicast, hon] at hmode
      simp at hmode
  · rintro ⟨hevents, hoff⟩
    refine ⟨nofun, nofun, fun _ e => ?_, fun _ => ?_⟩
    · by_cases he : e = .link
      · rw [he, hrestart.linkFlag, h.linkFlag]
      · rw [hrestart.flags e he, State.setting, hevents e he]
        rfl
    · rw [hrestart.multicast]
      simpa using hoff

theorem Inv.served_iff (h : Inv bigEndian s) {r : Request}
    (hreq : Uart1.request bigEndian s r = some (s', ack)) :
    Served bigEndian s r s' ack ↔ r.Meets bigEndian s := by
  cases r with
  | eventEnable type enable => exact ⟨fun _ => trivial, fun _ => ⟨nofun, nofun, nofun, nofun⟩⟩
  | igmpEnableSet enable => exact ⟨fun _ => trivial, fun _ => ⟨nofun, nofun, nofun, nofun⟩⟩
  | igmpEnableGet => exact h.igmpEnableGet_iff hreq
  | learnEnableGet =>
    cases hreq
    exact ⟨fun _ => trivial, fun _ => ⟨fun _ _ _ _ => rfl, nofun, nofun, nofun⟩⟩
  | get function packet =>
    cases hreq
    exact ⟨fun _ => trivial, fun _ => ⟨fun _ _ _ _ => rfl, nofun, nofun, nofun⟩⟩
  | restart => exact h.restart_iff hreq

/-! ### Runs -/

/-- The store has the settings as they were last set before the run. -/
structure Holds (bigEndian : Bool) (s : State) : Prop where
  ok : ConfigOk bigEndian s.cfg
  database : s.cfg.database.isSome = true
  texts : ∀ x, storedText bigEndian s.cfg x = (s.lastSet x).map fun v => uintText v.toUInt32

theorem Holds.inv (h : Holds bigEndian s) : Inv bigEndian s :=
  ⟨h.ok, h.database, h.texts _, .inl (h.texts _)⟩

/-- A store that nothing was set in; the flags are `TRUE`. -/
def State.start (files : CStr → Option CStr) (multicast : Bool) : State :=
  ⟨Config.start files, fun _ => 1, multicast, fun _ => none⟩

theorem holds_start (files : CStr → Option CStr) (multicast : Bool) :
    Holds bigEndian (.start files multicast) := by
  refine ⟨ConfigOk.start files, rfl, ?_⟩
  intro x
  obtain ⟨db, hdb⟩ : ∃ db, vosHashCreate 0 = some (db : HashTable CStr CfgModuleData) := ⟨_, rfl⟩
  show vosConfigValueGet bigEndian ⟨vosHashCreate 0, files⟩ _ _ _ = none
  rw [hdb, vosConfigValueGet]
  simp only [Option.bind_eq_bind, Option.bind_some, moduleKeyValue, value_create hdb,
    Option.bind_none]

def OptionInv (bigEndian : Bool) (o : Option State) : Prop := ∀ s ∈ o, Inv bigEndian s

theorem Holds.optionInv (h : Holds bigEndian s) : OptionInv bigEndian (some s) := by
  rintro _ ⟨⟩
  exact h.inv

theorem OptionInv.step {o : Option State} (h : OptionInv bigEndian o) (r : Request) :
    OptionInv bigEndian (step bigEndian o r) := by
  intro s₂ hs₂
  obtain ⟨s, hs, hrest⟩ := Option.bind_eq_some_iff.mp hs₂
  obtain ⟨⟨s', ack⟩, hreq, heq⟩ := Option.bind_eq_some_iff.mp hrest
  cases heq
  exact (h s hs).request hreq

theorem OptionInv.right_iff {o : Option State} (h : OptionInv bigEndian o) (r : Request) :
    Right bigEndian o r ↔ Guard bigEndian o r := by
  constructor
  · intro hright s hs hreturns
    obtain ⟨⟨s', ack⟩, hreq⟩ := Option.isSome_iff_exists.mp hreturns
    exact ((h s hs).served_iff hreq).mp (hright s hs (s', ack) hreq)
  · rintro hguard s hs ⟨s', ack⟩ hreq
    have hreturns : (Uart1.request bigEndian s r).isSome := by
      rw [hreq]
      rfl
    exact ((h s hs).served_iff hreq).mpr (hguard s hs hreturns)

theorem meets_restart {s : State} (hnack : s.lastSet (.event .nack) = some 0)
    (hregister : s.lastSet (.event .register) = some 0)
    (hoam : s.lastSet (.event .oamtransmit) = some 0) (higmp : s.setting .igmp ≠ 1) :
    Request.restart.Meets bigEndian s := by
  refine ⟨?_, higmp⟩
  intro e he
  cases e with
  | link => exact absurd rfl he
  | nack => exact hnack
  | register => exact hregister
  | oamtransmit => exact hoam

/-- Behind a restart the mode is stored. -/
theorem OptionInv.guard_restarted {o : Option State} (h : OptionInv bigEndian o)
    (hoff : ∀ s ∈ o, s.setting .igmp = 0) :
    Guard bigEndian (Uart1.step bigEndian o .restart) .igmpEnableGet := by
  intro s₂ hs₂ _
  obtain ⟨s, hs, hrest⟩ := Option.bind_eq_some_iff.mp hs₂
  obtain ⟨⟨s', ack⟩, hreq, heq⟩ := Option.bind_eq_some_iff.mp hrest
  cases heq
  refine ⟨hoff s hs, ?_⟩
  show storedText bigEndian s'.cfg .igmp ≠ none
  rw [(restart_spec (h s hs) hreq).igmp]
  nofun

/-- The requests that switch everything off. -/
def allOff : List Request :=
  [.eventEnable 0x8f 0, .eventEnable 0x89 0, .eventEnable 0x93 0, .igmpEnableSet 0]

/-- **Settings that are kept.**  In every run of requests and restarts, getters change nothing, the
IGMP mode is told as it was last set and restarts bring back all settings, exactly when the
mode is asked for only while it is off and stored, and restarts come only while it is off and
the events but for the link are disabled. -/
theorem settings_kept_iff (bigEndian : Bool) (s : State) (h : Holds bigEndian s)
    (rs : List Request) :
    AllSteps (step bigEndian) (Right bigEndian) (some s) rs ↔
      AllSteps (step bigEndian) (Guard bigEndian) (some s) rs :=
  allSteps_congr (step bigEndian) (OptionInv bigEndian) (fun _ r ho => ho.step r)
    (fun _ r ho => ho.right_iff r) h.optionInv rs

/-- Everything is switched off before a restart, and the mode is asked for behind it. -/
theorem settings_kept_iff_all_off :
    AllSteps (step false) (Right false) (some (.start (fun _ => none) true))
      (allOff ++ [.restart, .igmpEnableGet]) := by
  have hinv : OptionInv false (run (step false) (some (.start (fun _ => none) true)) allOff) :=
    run_invariant (step false) (OptionInv false) (fun _ r ho => ho.step r)
      (holds_start _ _).optionInv allOff
  have hoff : ∀ s ∈ run (step false) (some (.start (fun _ => none) true)) allOff,
      s.lastSet (.event .nack) = some 0 ∧ s.lastSet (.event .register) = some 0 ∧
        s.lastSet (.event .oamtransmit) = some 0 ∧ s.setting .igmp = 0 := by
    decide +kernel
  refine (settings_kept_iff false _ (holds_start _ _) _).mpr (AllSteps.append_iff.mpr ⟨?_, ?_⟩)
  · exact ⟨fun _ _ _ => trivial, fun _ _ _ => trivial, fun _ _ _ => trivial,
      fun _ _ _ => trivial, trivial⟩
  · refine ⟨?_, hinv.guard_restarted fun s hs => (hoff s hs).2.2.2, trivial⟩
    intro s hs _
    obtain ⟨hnack, hregister, hoam, higmp⟩ := hoff s hs
    exact meets_restart hnack hregister hoam (by rw [higmp]; decide)

/-- The mode is switched on and asked for: it is told to be off, and stored so. -/
theorem igmp_mode_not_told :
    ¬∀ (bigEndian : Bool) (s : State), Holds bigEndian s → ∀ rs : List Request,
      AllSteps (step bigEndian) (Right bigEndian) (some s) rs := by
  intro hclaim
  have hsteps := hclaim false (.start (fun _ => none) false) (holds_start _ _)
    [.igmpEnableSet 1, .igmpEnableGet]
  obtain ⟨s, hs, hlast, hreturns⟩ : ∃ s,
      step false (some (.start (fun _ => none) false)) (.igmpEnableSet 1) = some s ∧
      s.lastSet .igmp = some 1 ∧ (request false s .igmpEnableGet).isSome = true :=
    ⟨_, rfl, rfl, rfl⟩
  have hinv : OptionInv false (some s) := by
    rw [← hs]
    exact (holds_start _ _).optionInv.step _
  have hright := hsteps.2.1
  rw [hs] at hright
  have hoff := ((hinv.right_iff _).mp hright s rfl hreturns).1
  rw [State.setting, hlast] at hoff
  cases hoff

end Opconn.Exchange.Uart1
