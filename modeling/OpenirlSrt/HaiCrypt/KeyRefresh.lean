import OpenirlSrt.Lib.Machine

/-! # The two contexts of a sender -/

namespace OpenirlSrt.HaiCrypt
open Lib UInt32 Bool

inductive CtxStatus
  | init
  | sardy
  | keyed
  | active
  | deprecated
deriving DecidableEq, Repr

structure KmMsg where
  hasBothSek : Bool
  assembled : Bool
deriving DecidableEq, Repr

/-- `refreshed`: the context was given a new key since it was last active. `announced`: that key was sent in a message. -/
structure HcryptCtx where
  status : CtxStatus
  announce : Bool
  ttsend : Bool
  pktCnt : UInt32
  salt : Nat
  sek : Nat
  kmMsg : KmMsg
  refreshed : Bool
  announced : Bool
deriving DecidableEq, Repr

structure Session where
  refreshRate : UInt32
  preAnnounce : UInt32
  ctx : HcryptCtx
  alt : HcryptCtx
deriving DecidableEq, Repr

/-- The answers of the cryptographic service provider while a packet is sent. -/
structure Cryspr where
  encrypts : Bool
  prng : Option Nat
  setkey : Bool
  wrap : Bool
deriving DecidableEq, Repr

def Cryspr.refreshes (lib : Cryspr) : Bool := lib.prng.isSome && lib.setkey && lib.wrap

def asmKM (c : HcryptCtx) (both : Bool) (lib : Cryspr) : HcryptCtx := { c with kmMsg := ⟨both, lib.wrap⟩ }

namespace Session
variable (s : Session) (lib : Cryspr)

def refresh : Session :=
  let salted := { s.alt with salt := s.ctx.salt }
  match lib.prng with
  | none => { s with alt := salted }
  | some sek =>
    let fresh := { salted with sek := sek, announced := false }
    if !lib.setkey then { s with alt := fresh }
    else if !lib.wrap then { s with alt := asmKM fresh true lib }
    else { s with alt := { asmKM fresh true lib with pktCnt := 0, status := .keyed, refreshed := true } }

theorem refresh_values :
    (s.refresh lib).refreshRate = s.refreshRate ∧ (s.refresh lib).preAnnounce = s.preAnnounce := by
  rw [refresh]
  split
  · exact ⟨rfl, rfl⟩
  · split_ifs <;> exact ⟨rfl, rfl⟩

theorem refresh_eq {lib : Cryspr} (refreshes : lib.refreshes) : ∃ sek, s.refresh lib = { s with alt := { s.alt with
      salt := s.ctx.salt, sek := sek, announced := false, kmMsg := ⟨true, true⟩, pktCnt := 0, status := .keyed
      refreshed := true } } := by
  rw [Cryspr.refreshes, and_eq_true, and_eq_true] at refreshes
  obtain ⟨⟨made, setkey⟩, wrap⟩ := refreshes
  obtain ⟨sek, prng⟩ := Option.isSome_iff_exists.mp made
  refine ⟨sek, ?_⟩
  rw [refresh, prng]
  simp [asmKM, setkey, wrap]

def preSwitch : Session :=
  { s with
    ctx := { s.ctx with announce := s.ctx.announce && !s.alt.kmMsg.hasBothSek }
    alt := { s.alt with announce := true, ttsend := true } }

def switch : Session :=
  { s with
    ctx := { s.alt with status := .active, announce := true }
    alt := { s.ctx with status := .deprecated, refreshed := false, announced := false } }

def postSwitch : Session :=
  { s with
    ctx := if s.ctx.kmMsg.hasBothSek then asmKM s.ctx false lib else s.ctx
    alt := { s.alt with announce := false, status := .sardy } }

def switchDue : Bool := s.ctx.pktCnt > s.refreshRate || s.ctx.pktCnt = 0

def refreshDue : Bool := s.ctx.pktCnt > s.refreshRate - s.preAnnounce && !s.alt.announce

def postSwitchDue : Bool := s.alt.status = .deprecated && s.ctx.pktCnt > s.preAnnounce

def manageKM : Session :=
  if s.switchDue then s.switch
  else if s.refreshDue then (s.refresh lib).preSwitch
  else if s.postSwitchDue then s.postSwitch lib
  else s

end Session

def HcryptCtx.sendKM (c : HcryptCtx) : HcryptCtx :=
  if c.ttsend then { c with ttsend := false, announced := c.announced || c.kmMsg.assembled } else c

section SendKM
variable (c : HcryptCtx)

@[simp] theorem HcryptCtx.sendKM_announce : c.sendKM.announce = c.announce := by
  rw [sendKM]
  split_ifs <;> rfl

@[simp] theorem HcryptCtx.sendKM_pktCnt : c.sendKM.pktCnt = c.pktCnt := by
  rw [sendKM]
  split_ifs <;> rfl

@[simp] theorem HcryptCtx.sendKM_status : c.sendKM.status = c.status := by
  rw [sendKM]
  split_ifs <;> rfl

@[simp] theorem HcryptCtx.sendKM_refreshed : c.sendKM.refreshed = c.refreshed := by
  rw [sendKM]
  split_ifs <;> rfl

theorem HcryptCtx.sendKM_announced (sent : c.announced ∨ (c.ttsend ∧ c.kmMsg.assembled)) : c.sendKM.announced = true := by
  rw [sendKM]
  split_ifs with due
  · rcases sent with before | now
    · exact or_eq_true_iff.mpr (Or.inl before)
    · exact or_eq_true_iff.mpr (Or.inr now.2)
  · exact sent.resolve_right fun now => due now.1

end SendKM

namespace Session
variable (s : Session)

def injectKM : Session := { s with ctx := s.ctx.sendKM, alt := s.alt.sendKM }

def manageKeys (lib : Cryspr) : Session := (s.manageKM lib).injectKM

def count : Session := { s with ctx := { s.ctx with pktCnt := s.ctx.pktCnt + 1 } }

def sendPacket (lib : Cryspr) : Session := if lib.encrypts then s.count.manageKeys lib else s

def switchesOn (lib : Cryspr) : Bool := lib.encrypts && s.count.switchDue

def refreshesOn (lib : Cryspr) : Bool := lib.encrypts && !s.count.switchDue && s.count.refreshDue

end Session

theorem Session.manageKM_values (s : Session) (lib : Cryspr) :
    (s.manageKM lib).refreshRate = s.refreshRate ∧ (s.manageKM lib).preAnnounce = s.preAnnounce := by
  rw [manageKM]
  split_ifs
  · exact ⟨rfl, rfl⟩
  · exact s.refresh_values lib
  · exact ⟨rfl, rfl⟩
  · exact ⟨rfl, rfl⟩

theorem Session.sendPacket_values (s : Session) (lib : Cryspr) :
    (s.sendPacket lib).refreshRate = s.refreshRate ∧ (s.sendPacket lib).preAnnounce = s.preAnnounce := by
  rw [sendPacket]
  split_ifs
  · exact s.count.manageKM_values lib
  · exact ⟨rfl, rfl⟩

def HcryptCtx.spare : HcryptCtx := ⟨.sardy, false, false, 0, 0, 0, ⟨false, false⟩, false, false⟩

def Session.start (refreshRate preAnnounce : UInt32) (salt sek : Nat) : Session where
  refreshRate := refreshRate
  preAnnounce := preAnnounce
  ctx := ⟨.active, true, true, 1, salt, sek, ⟨false, true⟩, true, false⟩
  alt := .spare

def txMachine (start : Session) : Machine Session Cryspr where
  init := start
  enabled _ _ := True
  step := Session.sendPacket

/-! ## The refresh of keys -/

def defKmRefreshRate : UInt32 := 0x1000000

def defKmPreAnnounce : UInt32 := 0x1000

def srtCryptKmPreAnnounce : UInt32 := 0x10000

structure KmOptions where
  uKmRefreshRatePkt : UInt32
  uKmPreAnnouncePkt : UInt32
deriving DecidableEq, Repr

namespace KmOptions
variable (co : KmOptions)

def kmRefresh : UInt32 := if co.uKmRefreshRatePkt = 0 then defKmRefreshRate else co.uKmRefreshRatePkt

def setKmRefreshRate (val : Int32) : Option KmOptions :=
  if val.toInt < 0 then none
  else
    let co := { co with uKmRefreshRatePkt := val.toUInt32 }
    if co.uKmPreAnnouncePkt = 0 && co.uKmRefreshRatePkt = 0 then some co
    else
      let kmPreanno := if co.uKmPreAnnouncePkt = 0 then defKmPreAnnounce else co.uKmPreAnnouncePkt
      if co.uKmPreAnnouncePkt = 0 || kmPreanno > (co.kmRefresh - 1) / 2 then
        some { co with uKmPreAnnouncePkt := (co.kmRefresh - 1) / 2 }
      else some co

def setKmPreAnnounce (val : Int32) : Option KmOptions :=
  if val.toInt < 0 then none
  else
    let kmPreanno := if val = 0 then defKmPreAnnounce else val.toUInt32
    if kmPreanno > (co.kmRefresh - 1) / 2 then none else some { co with uKmPreAnnouncePkt := val.toUInt32 }

def cfgPreAnnounce : UInt32 := if co.uKmPreAnnouncePkt = 0 then srtCryptKmPreAnnounce else co.uKmPreAnnouncePkt

end KmOptions

inductive KmSetting
  | refreshRate (val : Int32)
  | preAnnounce (val : Int32)
deriving DecidableEq, Repr

def KmOptions.set (co : KmOptions) : KmSetting → KmOptions
  | .refreshRate val => (co.setKmRefreshRate val).getD co
  | .preAnnounce val => (co.setKmPreAnnounce val).getD co

def optionsAfter (settings : List KmSetting) : KmOptions := settings.foldl KmOptions.set ⟨0, 0⟩

/-- The value zero for the announcement stands for one that the rate has room for. -/
def KmOptions.roomy (co : KmOptions) : Bool :=
  co.uKmPreAnnouncePkt ≠ 0 || co.uKmRefreshRatePkt = 0 || co.uKmRefreshRatePkt > 0x20000

/-! ### The options -/

structure KmOptions.Accepted (co : KmOptions) : Prop where
  half : co.uKmPreAnnouncePkt ≠ 0 → 2 * co.uKmPreAnnouncePkt.toNat + 1 ≤ co.kmRefresh.toNat
  bounded : co.uKmRefreshRatePkt.toNat < 2 ^ 31

theorem half_toNat {rate : UInt32} (positive : rate ≠ 0) : ((rate - 1) / 2).toNat = (rate.toNat - 1) / 2 := by
  have one_le : (1 : UInt32) ≤ rate := by
    rw [le_iff_toNat_le]
    have := UInt32.toNat_inj.not.mpr positive
    simp at this ⊢
    omega
  rw [UInt32.toNat_div, UInt32.toNat_sub_of_le _ _ one_le]
  rfl

theorem kmRefresh_ne_zero (co : KmOptions) : co.kmRefresh ≠ 0 := by
  rw [KmOptions.kmRefresh]
  split_ifs with unset
  · decide
  · exact unset

variable {val : Int32}

theorem toUInt32_toNat_lt (nonneg : ¬ val.toInt < 0) : val.toUInt32.toNat < 2 ^ 31 := by
  have split := BitVec.toInt_eq_toNat_cond val.toBitVec
  change ¬ val.toBitVec.toInt < 0 at nonneg
  show val.toBitVec.toNat < 2 ^ 31
  split_ifs at split <;> omega

theorem toUInt32_eq_zero : val.toUInt32 = 0 ↔ val = 0 := by
  constructor
  · intro zero
    have bits : val.toBitVec = 0#32 := congrArg UInt32.toBitVec zero
    exact Int32.toBitVec_inj.mp bits
  · rintro rfl
    rfl

theorem le_half_iff {value rate : UInt32} (positive : rate ≠ 0) :
    value ≤ (rate - 1) / 2 ↔ 2 * value.toNat + 1 ≤ rate.toNat := by
  have nonzero := UInt32.toNat_inj.not.mpr positive
  rw [UInt32.toNat_zero] at nonzero
  rw [le_iff_toNat_le, half_toNat positive]
  omega

variable {co : KmOptions}

theorem setKmRefreshRate_accepted {co' : KmOptions} (run : co.setKmRefreshRate val = some co') : co'.Accepted := by
  rw [KmOptions.setKmRefreshRate] at run
  by_cases negative : val.toInt < 0
  · rw [if_pos negative] at run
    cases run
  rw [if_neg negative] at run
  have bounded := toUInt32_toNat_lt negative
  generalize rated_eq : ({ co with uKmRefreshRatePkt := val.toUInt32 } : KmOptions) = rated at run
  have rate : rated.uKmRefreshRatePkt = val.toUInt32 := by rw [← rated_eq]
  have positive := kmRefresh_ne_zero rated
  dsimp only at run
  by_cases unset : rated.uKmPreAnnouncePkt = 0
  · split_ifs at run with default_ above
    · cases run
      exact ⟨fun set => absurd unset set, rate ▸ bounded⟩
    · cases run
      exact ⟨fun _ => (le_half_iff positive).mp (UInt32.le_refl _), rate ▸ bounded⟩
    · simp [unset] at above
  · rw [if_neg (by simp [unset]), if_neg unset] at run
    split_ifs at run with above
    · cases run
      exact ⟨fun _ => (le_half_iff positive).mp (UInt32.le_refl _), rate ▸ bounded⟩
    · have below : rated.uKmPreAnnouncePkt ≤ (rated.kmRefresh - 1) / 2 := by simpa [unset] using above
      cases run
      exact ⟨fun _ => (le_half_iff positive).mp below, rate ▸ bounded⟩

theorem setKmPreAnnounce_accepted {co' : KmOptions} (accepted : co.Accepted)
    (run : co.setKmPreAnnounce val = some co') : co'.Accepted := by
  rw [KmOptions.setKmPreAnnounce] at run
  by_cases negative : val.toInt < 0
  · rw [if_pos negative] at run
    cases run
  rw [if_neg negative] at run
  by_cases above : (if val = 0 then defKmPreAnnounce else val.toUInt32) > (co.kmRefresh - 1) / 2
  · rw [if_pos above] at run
    cases run
  rw [if_neg above] at run
  cases run
  refine ⟨fun set => ?_, accepted.bounded⟩
  rw [if_neg (toUInt32_eq_zero.not.mp set)] at above
  exact (le_half_iff (kmRefresh_ne_zero co)).mp (UInt32.not_lt.mp above)

theorem set_accepted (accepted : co.Accepted) (setting : KmSetting) : (co.set setting).Accepted := by
  cases setting with
  | refreshRate val =>
    rw [KmOptions.set]
    cases run : co.setKmRefreshRate val with
    | none => exact accepted
    | some co' => exact setKmRefreshRate_accepted run
  | preAnnounce val =>
    rw [KmOptions.set]
    cases run : co.setKmPreAnnounce val with
    | none => exact accepted
    | some co' => exact setKmPreAnnounce_accepted accepted run

theorem optionsAfter_accepted (settings : List KmSetting) : (optionsAfter settings).Accepted := by
  suffices kept : ∀ co : KmOptions, co.Accepted → (settings.foldl KmOptions.set co).Accepted from
    kept ⟨0, 0⟩ ⟨fun set => absurd rfl set, by decide⟩
  induction settings with
  | nil => exact fun _ => id
  | cons setting rest ih => exact fun co accepted => ih _ (set_accepted accepted setting)

theorem roomy_iff (accepted : co.Accepted) : co.cfgPreAnnounce ≤ (co.kmRefresh - 1) / 2 ↔ co.roomy := by
  rw [le_half_iff (kmRefresh_ne_zero co), KmOptions.cfgPreAnnounce, KmOptions.roomy]
  by_cases unset : co.uKmPreAnnouncePkt = 0
  · rw [if_pos unset, KmOptions.kmRefresh]
    by_cases rate : co.uKmRefreshRatePkt = 0
    · simp [unset, rate, srtCryptKmPreAnnounce, defKmRefreshRate]
    · have limit : (0x20000 : UInt32).toNat = 0x20000 := rfl
      have announce : srtCryptKmPreAnnounce.toNat = 0x10000 := rfl
      simp only [unset, rate, if_false, ne_eq, not_true_eq_false, decide_false, Bool.false_or, decide_eq_true_eq, gt_iff_lt,
        lt_iff_toNat_lt, limit, announce]
      omega
  · simpa [unset] using accepted.half unset

/-! ### The contexts -/

structure Proportioned (s : Session) : Prop where
  announces : 1 ≤ s.preAnnounce.toNat
  half : 2 * s.preAnnounce.toNat + 1 ≤ s.refreshRate.toNat
  bounded : s.refreshRate.toNat < 2 ^ 31

inductive Phase (s : Session) : Prop
  | early (count : s.ctx.pktCnt.toNat + s.preAnnounce.toNat ≤ s.refreshRate.toNat) (silent : s.alt.announce = false)
  | late (past : s.refreshRate.toNat < s.ctx.pktCnt.toNat + s.preAnnounce.toNat)
      (count : s.ctx.pktCnt.toNat ≤ s.refreshRate.toNat) (announces : s.alt.announce = true) (quiet : s.ctx.announce = false)
      (keyed : s.alt.status = .keyed) (unused : s.alt.pktCnt = 0) (refreshed : s.alt.refreshed = true)
      (announced : s.alt.announced = true)

def SwitchesPrepared (s : Session) (lib : Cryspr) : Prop := s.switchesOn lib → s.alt.refreshed ∧ s.alt.announced

def RefreshSucceeds (s : Session) (lib : Cryspr) : Prop := s.refreshesOn lib → lib.refreshes

variable {s : Session}

section
variable (proportion : Proportioned s)
include proportion

theorem count_toNat (phase : Phase s) : s.count.ctx.pktCnt.toNat = s.ctx.pktCnt.toNat + 1 := by
  have bounded := proportion.bounded
  have below : s.ctx.pktCnt.toNat ≤ s.refreshRate.toNat := by
    cases phase with
    | early count silent => omega
    | late past count announces quiet keyed unused refreshed announced => exact count
  show (s.ctx.pktCnt + 1).toNat = _
  exact Nat.mod_eq_of_lt (by simp; omega)

theorem difference_toNat : (s.refreshRate - s.preAnnounce).toNat = s.refreshRate.toNat - s.preAnnounce.toNat := by
  have half := proportion.half
  exact UInt32.toNat_sub_of_le _ _ (le_iff_toNat_le.mpr (by omega))

theorem switchDue_iff (phase : Phase s) : s.count.switchDue = true ↔ s.refreshRate.toNat < s.ctx.pktCnt.toNat + 1 := by
  have counted := count_toNat proportion phase
  have nonzero : s.count.ctx.pktCnt ≠ 0 := by
    intro zero
    rw [zero] at counted
    simp at counted
  rw [Session.switchDue, or_eq_true, decide_eq_true_eq, decide_eq_true_eq, or_iff_left nonzero]
  show s.refreshRate < s.count.ctx.pktCnt ↔ _
  rw [lt_iff_toNat_lt, counted]

theorem refreshDue_iff (phase : Phase s) : s.count.refreshDue = true ↔
      s.refreshRate.toNat < s.ctx.pktCnt.toNat + 1 + s.preAnnounce.toNat ∧ s.alt.announce = false := by
  rw [Session.refreshDue, and_eq_true, decide_eq_true_eq, not_eq_true']
  refine and_congr_left' ?_
  show s.refreshRate - s.preAnnounce < s.count.ctx.pktCnt ↔ _
  rw [lt_iff_toNat_lt, difference_toNat proportion, count_toNat proportion phase]
  omega

theorem switchesPrepared (phase : Phase s) (lib : Cryspr) : SwitchesPrepared s lib := by
  intro switches
  have due := (switchDue_iff proportion phase).mp (and_eq_true_iff.mp switches).2
  cases phase with
  | early count silent =>
    have := proportion.announces
    omega
  | late past count announces quiet keyed unused refreshed announced => exact ⟨refreshed, announced⟩

end

/-! ### The phase that a packet leads to -/

section Packet
variable {s : Session} (proportion : Proportioned s) (phase : Phase s)
include proportion phase

theorem switch_phase (switches : s.count.switchDue) : Phase s.count.switch.injectKM := by
  have due := (switchDue_iff proportion phase).mp switches
  have half := proportion.half
  cases phase with
  | early count silent =>
    have := proportion.announces
    omega
  | late past count announces quiet keyed unused refreshed announced =>
    refine .early ?_ ((HcryptCtx.sendKM_announce _).trans quiet)
    show (HcryptCtx.sendKM _).pktCnt.toNat + s.preAnnounce.toNat ≤ s.refreshRate.toNat
    rw [HcryptCtx.sendKM_pktCnt]
    show s.alt.pktCnt.toNat + _ ≤ _
    rw [unused, UInt32.toNat_zero]
    omega

variable {lib : Cryspr}

theorem refresh_phase (refreshes : lib.refreshes) (within : ¬ s.count.switchDue) (due : s.count.refreshDue) :
    Phase (s.count.refresh lib).preSwitch.injectKM := by
  have counted := count_toNat proportion phase
  have count := (switchDue_iff proportion phase).not.mp within
  obtain ⟨past, -⟩ := (refreshDue_iff proportion phase).mp due
  obtain ⟨sek, refreshed⟩ := s.count.refresh_eq refreshes
  rw [refreshed]
  refine .late ?_ ?_ (HcryptCtx.sendKM_announce _) ((HcryptCtx.sendKM_announce _).trans (Bool.and_false _))
    (HcryptCtx.sendKM_status _) (HcryptCtx.sendKM_pktCnt _) (HcryptCtx.sendKM_refreshed _)
    (HcryptCtx.sendKM_announced _ (Or.inr ⟨rfl, rfl⟩))
  · show s.refreshRate.toNat < (HcryptCtx.sendKM _).pktCnt.toNat + s.preAnnounce.toNat
    rw [HcryptCtx.sendKM_pktCnt]
    show _ < s.count.ctx.pktCnt.toNat + _
    omega
  · show (HcryptCtx.sendKM _).pktCnt.toNat ≤ s.refreshRate.toNat
    rw [HcryptCtx.sendKM_pktCnt]
    show s.count.ctx.pktCnt.toNat ≤ _
    omega

theorem wait_phase (lib : Cryspr) (within : ¬ s.count.switchDue) (waits : ¬ s.count.refreshDue) :
    Phase (if s.count.postSwitchDue then s.count.postSwitch lib else s.count).injectKM := by
  have counted := count_toNat proportion phase
  have within := (switchDue_iff proportion phase).not.mp within
  have waits := (refreshDue_iff proportion phase).not.mp waits
  cases phase with
  | early count silent =>
    have early : s.ctx.pktCnt.toNat + 1 + s.preAnnounce.toNat ≤ s.refreshRate.toNat :=
      Nat.le_of_not_lt fun past => waits ⟨past, silent⟩
    generalize after_eq : (if s.count.postSwitchDue then s.count.postSwitch lib else s.count) = after
    have kept : after.refreshRate = s.refreshRate ∧ after.preAnnounce = s.preAnnounce ∧
        after.ctx.pktCnt = s.count.ctx.pktCnt ∧ after.alt.announce = false := by
      rw [← after_eq]
      split_ifs
      · refine ⟨rfl, rfl, ?_, rfl⟩
        rw [Session.postSwitch]
        split_ifs <;> rfl
      · exact ⟨rfl, rfl, rfl, silent⟩
    obtain ⟨rate, announce, pktCnt, quiet⟩ := kept
    refine .early ?_ ((HcryptCtx.sendKM_announce _).trans quiet)
    show after.ctx.sendKM.pktCnt.toNat + after.preAnnounce.toNat ≤ after.refreshRate.toNat
    rw [HcryptCtx.sendKM_pktCnt, rate, announce, pktCnt]
    omega
  | late past count announces quiet keyed unused refreshed announced =>
    have active : ¬ s.count.postSwitchDue := by
      show ¬ (decide (s.alt.status = .deprecated) && _) = true
      rw [keyed]
      exact Bool.false_ne_true
    rw [if_neg active]
    refine .late ?_ ?_ ((HcryptCtx.sendKM_announce _).trans announces) ((HcryptCtx.sendKM_announce _).trans quiet)
      ((HcryptCtx.sendKM_status _).trans keyed) ((HcryptCtx.sendKM_pktCnt _).trans unused)
      ((HcryptCtx.sendKM_refreshed _).trans refreshed) (HcryptCtx.sendKM_announced _ (Or.inl announced))
    · show s.refreshRate.toNat < (HcryptCtx.sendKM _).pktCnt.toNat + s.preAnnounce.toNat
      rw [HcryptCtx.sendKM_pktCnt]
      omega
    · show (HcryptCtx.sendKM _).pktCnt.toNat ≤ s.refreshRate.toNat
      rw [HcryptCtx.sendKM_pktCnt]
      omega

theorem manageKeys_phase (succeeds : ¬ s.count.switchDue → s.count.refreshDue → lib.refreshes) :
    Phase (s.count.manageKeys lib) := by
  rw [Session.manageKeys, Session.manageKM]
  by_cases switches : s.count.switchDue
  · rw [if_pos switches]
    exact switch_phase proportion phase switches
  rw [if_neg switches]
  by_cases due : s.count.refreshDue
  · rw [if_pos due]
    exact refresh_phase proportion phase (succeeds switches due) switches due
  · rw [if_neg due]
    exact wait_phase proportion phase lib switches due

theorem sendPacket_phase (succeeds : RefreshSucceeds s lib) : Phase (s.sendPacket lib) := by
  rw [Session.sendPacket]
  split_ifs with encrypts
  · refine manageKeys_phase proportion phase fun within due => succeeds ?_
    simp [Session.refreshesOn, encrypts, within, due]
  · exact phase

end Packet

/-! ### Runs -/

def KmOptions.session (co : KmOptions) (salt sek : Nat) (created : Option Cryspr) : Session :=
  match created with
  | none => .start co.kmRefresh co.cfgPreAnnounce salt sek
  | some lib => (Session.start co.kmRefresh co.cfgPreAnnounce salt sek).manageKeys lib

theorem start_proportioned (accepted : co.Accepted) (roomy : co.roomy) (salt sek : Nat) :
    Proportioned (.start co.kmRefresh co.cfgPreAnnounce salt sek) where
  announces := by
    show 1 ≤ co.cfgPreAnnounce.toNat
    rw [KmOptions.cfgPreAnnounce]
    split_ifs with unset
    · decide
    · have := UInt32.toNat_inj.not.mpr unset
      simp at this
      omega
  half := (le_half_iff (kmRefresh_ne_zero co)).mp ((roomy_iff accepted).mpr roomy)
  bounded := by
    show co.kmRefresh.toNat < _
    rw [KmOptions.kmRefresh]
    split_ifs
    · decide
    · exact accepted.bounded

theorem Proportioned.of_values {s' : Session} (proportion : Proportioned s)
    (same : s'.refreshRate = s.refreshRate ∧ s'.preAnnounce = s.preAnnounce) : Proportioned s' := by
  obtain ⟨announces, half, bounded⟩ := proportion
  constructor
  all_goals
    simp only [same.1, same.2]
    assumption

theorem start_phase {start : Session} (proportion : Proportioned start) (first : start.ctx.pktCnt.toNat ≤ 1)
    (silent : start.alt.announce = false) : Phase start := by
  have half := proportion.half
  exact .early (by omega) silent

theorem session_phase (accepted : co.Accepted) (roomy : co.roomy) (salt sek : Nat) (created : Option Cryspr) :
    Proportioned (co.session salt sek created) ∧ Phase (co.session salt sek created) := by
  have proportion := start_proportioned accepted roomy salt sek
  generalize start_eq : Session.start co.kmRefresh co.cfgPreAnnounce salt sek = start at proportion
  cases created with
  | none =>
    rw [KmOptions.session, start_eq]
    refine ⟨proportion, start_phase proportion ?_ ?_⟩
    · rw [← start_eq]
      show (1 : UInt32).toNat ≤ 1
      decide
    · rw [← start_eq]
      rfl
  | some lib =>
    rw [KmOptions.session, start_eq]
    refine ⟨proportion.of_values (start.manageKM_values lib), ?_⟩
    -- the first look at the keys is the one after a packet of a session that has not counted it
    have uncounted : ({ start with ctx := { start.ctx with pktCnt := 0 } } : Session).count = start := by
      rw [← start_eq]
      rfl
    have before : Proportioned { start with ctx := { start.ctx with pktCnt := 0 } } := proportion.of_values ⟨rfl, rfl⟩
    have phase : Phase { start with ctx := { start.ctx with pktCnt := 0 } } := by
      refine start_phase before (by show (0 : UInt32).toNat ≤ 1; decide) ?_
      rw [← start_eq]
      rfl
    rw [← uncounted]
    refine manageKeys_phase before phase fun _ due => ?_
    have past := ((refreshDue_iff before phase).mp due).1
    have half := before.half
    change _ < (0 : UInt32).toNat + 1 + _ at past
    rw [UInt32.toNat_zero] at past
    omega

/-- With values that have room, and refreshes that succeed, the contexts are switched only to a key that is new and was
announced, and the differences of the counters do not wrap around. The values have room exactly if they are in the
proportion that is asked for. -/
theorem switches_prepared (settings : List KmSetting) (salt sek : Nat) (created : Option Cryspr) (packets : List Cryspr) :
    ((optionsAfter settings).cfgPreAnnounce ≤ ((optionsAfter settings).kmRefresh - 1) / 2 ↔ (optionsAfter settings).roomy) ∧
    ((optionsAfter settings).roomy →
      (txMachine ((optionsAfter settings).session salt sek created)).Along RefreshSucceeds
        ((optionsAfter settings).session salt sek created) packets →
      (optionsAfter settings).cfgPreAnnounce ≤ (optionsAfter settings).kmRefresh ∧
        (txMachine ((optionsAfter settings).session salt sek created)).Along SwitchesPrepared
          ((optionsAfter settings).session salt sek created) packets) := by
  have accepted := optionsAfter_accepted settings
  generalize optionsAfter settings = co at accepted ⊢
  refine ⟨roomy_iff accepted, fun roomy succeeds => ⟨?_, ?_⟩⟩
  · have half := (start_proportioned accepted roomy salt sek).half
    rw [le_iff_toNat_le]
    change 2 * co.cfgPreAnnounce.toNat + 1 ≤ co.kmRefresh.toNat at half
    omega
  · have keeps : ∀ s lib, Proportioned s ∧ Phase s → RefreshSucceeds s lib →
        Proportioned (s.sendPacket lib) ∧ Phase (s.sendPacket lib) := fun s lib before succeeds =>
      ⟨before.1.of_values (s.sendPacket_values lib), sendPacket_phase before.1 before.2 succeeds⟩
    exact Machine.along_of_invariant keeps (fun s lib before _ => switchesPrepared before.1 before.2 lib)
      (session_phase accepted roomy salt sek created) succeeds

/-! ### Small rates -/

def servingLib (sek : Nat) : Cryspr := ⟨true, some sek, true, true⟩

def failingLib : Cryspr := ⟨true, none, true, true⟩

def cloneAfter (settings : List KmSetting) : Session := (optionsAfter settings).session 1 2 none

theorem switches_prepared_third : ((txMachine (cloneAfter [.refreshRate 3])).exec (cloneAfter [.refreshRate 3])
      [servingLib 7, servingLib 8, servingLib 9]).ctx.sek = 8 ∧
    (txMachine (cloneAfter [.refreshRate 3])).Along SwitchesPrepared (cloneAfter [.refreshRate 3])
      [servingLib 7, servingLib 8, servingLib 9] := by
  have serves : ∀ lib ∈ [servingLib 7, servingLib 8, servingLib 9], lib.refreshes = true := by decide
  have succeeds : (txMachine (cloneAfter [.refreshRate 3])).Along RefreshSucceeds (cloneAfter [.refreshRate 3])
      [servingLib 7, servingLib 8, servingLib 9] := by
    refine Machine.along_of_forall (fun lib member s => ?_) _
    exact fun _ => serves lib member
  exact ⟨by decide, ((switches_prepared [.refreshRate 3] 1 2 none [servingLib 7, servingLib 8, servingLib 9]).2
    (by decide) succeeds).2⟩

/-- A rate of one packet, or the default announcement with a rate that it was not checked for, puts the values out of
proportion; with the first the next context takes over without a key. A refresh that fails has the same effect. -/
theorem switches_unprepared : (KmOptions.setKmRefreshRate ⟨0, 0⟩ 1 = some ⟨1, 0⟩ ∧
      ¬ (optionsAfter [.refreshRate 1]).cfgPreAnnounce ≤ (optionsAfter [.refreshRate 1]).kmRefresh ∧
      ¬ (txMachine (cloneAfter [.refreshRate 1])).Along SwitchesPrepared (cloneAfter [.refreshRate 1]) [servingLib 7] ∧
      ((txMachine (cloneAfter [.refreshRate 1])).exec (cloneAfter [.refreshRate 1]) [servingLib 7]).ctx =
        { HcryptCtx.spare with status := .active, announce := true }) ∧
    (KmOptions.setKmPreAnnounce ⟨0x3000, 0x17ff⟩ 0 = some ⟨0x3000, 0⟩ ∧
      ¬ (optionsAfter [.refreshRate 0x3000, .preAnnounce 0]).cfgPreAnnounce ≤
        ((optionsAfter [.refreshRate 0x3000, .preAnnounce 0]).kmRefresh - 1) / 2) ∧
    ¬ (txMachine (cloneAfter [.refreshRate 3])).Along SwitchesPrepared (cloneAfter [.refreshRate 3])
      [servingLib 7, failingLib, servingLib 9] := by
  refine ⟨⟨by decide, by decide, fun along => ?_, by decide⟩, ⟨by decide, by decide⟩, fun along => ?_⟩
  · exact absurd (along.1 (by decide)).1 (by decide)
  · exact absurd (along.2.2.1 (by decide)).1 (by decide)

end OpenirlSrt.HaiCrypt
