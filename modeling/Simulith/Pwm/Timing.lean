import Simulith.Driver.Pwm
import Simulith.Driver.Units

/-!
# PWM timing

`PwmCall.request` is the configuration a call asks for when it is accepted,
`body_cases` what a call does to a channel. The product of period and duty
cycle is taken modulo 2^32, so the pulse width is right exactly for the
configurations that `Fits` (`timed_iff`), and the channels of a run stay right
exactly as long as it asks for no other (`pwm_timed_iff`).
-/

namespace Simulith

open Lts

/-- A channel number and a call, with the result. -/
abbrev PwmEvent := (UInt8 × PwmCall) × Result

def PwmChannels.step : PwmChannels → PwmEvent → Option PwmChannels :=
  answer fun channels c => c.2.run c.1 channels

namespace PwmConfig

def Valid (config : PwmConfig) : Prop :=
  isValidFrequency config.frequencyHz = true ∧ isValidDutyCycle config.dutyCycle = true

instance (config : PwmConfig) : Decidable config.Valid := inferInstanceAs (Decidable (_ ∧ _))

/-- The product of period and duty cycle needs no more than 32 bits. -/
def Fits (config : PwmConfig) : Prop :=
  10 ^ 9 / config.frequencyHz.toNat * config.dutyCycle.toNat < 2 ^ 32

instance (config : PwmConfig) : Decidable config.Fits := inferInstanceAs (Decidable (_ < _))

theorem valid_iff {config : PwmConfig} : config.Valid ↔ 1 ≤ config.frequencyHz.toNat ∧
    config.frequencyHz.toNat ≤ 1000000 ∧ config.dutyCycle.toNat ≤ 100 := by
  simp only [Valid, isValidFrequency, isValidDutyCycle, Bool.and_eq_true, decide_eq_true_eq,
    UInt32.le_iff_toNat_le, UInt8.le_iff_toNat_le, and_assoc]
  rfl

end PwmConfig

/-- The configuration an accepted call asks for. -/
def PwmCall.request (pwm : PwmChannel) : PwmCall → Option PwmConfig
  | init (some config) =>
    if config.Valid ∧ pwm.initialized = false then some config else none
  | setDuty dutyCycle =>
    if isValidDutyCycle dutyCycle = true ∧ pwm.initialized = true then
      some { pwm.config with dutyCycle := dutyCycle }
    else none
  | setFrequency frequencyHz =>
    if isValidFrequency frequencyHz = true ∧ pwm.initialized = true then
      some { pwm.config with frequencyHz := frequencyHz }
    else none
  | _ => none

namespace PwmChannel

variable {pwm pwm' : PwmChannel} {c : PwmCall} {r : Result}

/-- The timing of a channel, over the integers. -/
structure Timed (pwm : PwmChannel) : Prop where
  one_le_frequency : 1 ≤ pwm.config.frequencyHz.toNat
  frequency_le : pwm.config.frequencyHz.toNat ≤ 1000000
  duty_le : pwm.config.dutyCycle.toNat ≤ 100
  period_eq : pwm.periodNs.toNat = 10 ^ 9 / pwm.config.frequencyHz.toNat
  duty_eq : pwm.dutyNs.toNat = pwm.periodNs.toNat * pwm.config.dutyCycle.toNat / 100
  dutyNs_le : pwm.dutyNs.toNat ≤ pwm.periodNs.toNat
  full : pwm.config.dutyCycle.toNat = 100 → pwm.dutyNs = pwm.periodNs

/-- What `update_timing` leaves: the pulse width of the wrapped product. -/
theorem updateTiming_eq (h : pwm.config.Valid) :
    ∃ pwm', pwm.updateTiming = some pwm' ∧ pwm'.config = pwm.config ∧
      pwm'.initialized = pwm.initialized ∧ pwm'.running = pwm.running ∧
      pwm'.periodNs.toNat = 10 ^ 9 / pwm.config.frequencyHz.toNat ∧
      pwm'.dutyNs.toNat =
        10 ^ 9 / pwm.config.frequencyHz.toNat * pwm.config.dutyCycle.toNat % 2 ^ 32 / 100 := by
  obtain ⟨hf, -, -⟩ := PwmConfig.valid_iff.mp h
  have hne : pwm.config.frequencyHz ≠ 0 := by
    intro h0
    rw [h0] at hf
    exact absurd hf (by decide)
  have hperiod : (1000000000 / pwm.config.frequencyHz.toUInt64).toUInt32.toNat =
      10 ^ 9 / pwm.config.frequencyHz.toNat := by
    have hle : 10 ^ 9 / pwm.config.frequencyHz.toNat ≤ 10 ^ 9 := Nat.div_le_self _ _
    rw [UInt64.toNat_toUInt32, UInt64.toNat_div, UInt32.toNat_toUInt64]
    exact Nat.mod_eq_of_lt (show 10 ^ 9 / pwm.config.frequencyHz.toNat < 2 ^ 32 by omega)
  refine ⟨_, if_neg hne, rfl, rfl, rfl, hperiod, ?_⟩
  rw [UInt32.toNat_div, UInt32.toNat_mul, hperiod, UInt8.toNat_toUInt32]
  rfl

/-- A quotient of a wrapped product is that of the product only when nothing is lost. -/
theorem wrapped_div_eq_iff {x : Nat} : x % 2 ^ 32 / 100 = x / 100 ↔ x < 2 ^ 32 := by
  omega

theorem timed_iff (hv : pwm.config.Valid)
    (hp : pwm.periodNs.toNat = 10 ^ 9 / pwm.config.frequencyHz.toNat)
    (hd : pwm.dutyNs.toNat =
      10 ^ 9 / pwm.config.frequencyHz.toNat * pwm.config.dutyCycle.toNat % 2 ^ 32 / 100) :
    pwm.Timed ↔ pwm.config.Fits := by
  obtain ⟨hf1, hf2, hdc⟩ := PwmConfig.valid_iff.mp hv
  constructor
  · intro ht
    have h := ht.duty_eq
    rw [hd, hp] at h
    exact wrapped_div_eq_iff.mp h
  · intro hfit
    have hduty : pwm.dutyNs.toNat = pwm.periodNs.toNat * pwm.config.dutyCycle.toNat / 100 := by
      rw [hd, hp]
      exact wrapped_div_eq_iff.mpr hfit
    refine ⟨hf1, hf2, hdc, hp, hduty, ?_, fun h100 => ?_⟩
    · rw [hduty]
      apply Nat.div_le_of_le_mul
      rw [Nat.mul_comm 100]
      exact Nat.mul_le_mul_left _ hdc
    · apply UInt32.toNat_inj.mp
      rw [hduty, h100, Nat.mul_div_cancel _ (by omega)]

/-- A channel whose timing has just been set for `config`. -/
structure Retimed (config : PwmConfig) (pwm : PwmChannel) : Prop where
  valid : config.Valid
  config_eq : pwm.config = config
  initialized : pwm.initialized = true
  period_eq : pwm.periodNs.toNat = 10 ^ 9 / config.frequencyHz.toNat
  duty_eq : pwm.dutyNs.toNat =
    10 ^ 9 / config.frequencyHz.toNat * config.dutyCycle.toNat % 2 ^ 32 / 100

theorem Retimed.timed_iff {config : PwmConfig} (h : Retimed config pwm) :
    pwm.Timed ↔ config.Fits := by
  obtain ⟨hv, rfl, -, hp, hd⟩ := h
  exact PwmChannel.timed_iff hv hp hd

theorem retimed_of_updateTiming (hv : pwm.config.Valid) (hi : pwm.initialized = true)
    (h : (pwm.updateTiming.bind fun p => some (p, Result.plain 0 .absent)) = some (pwm', r)) :
    Retimed pwm.config pwm' := by
  obtain ⟨p, hp, hc, hin, -, hper, hd⟩ := updateTiming_eq hv
  rw [hp] at h
  cases h
  exact ⟨hv, hc, hin.trans hi, hper, hd⟩

theorem init_cases {config : Option PwmConfig} (h : pwm.init config = some (pwm', r)) :
    (∃ cfg, (PwmCall.init config).request pwm = some cfg ∧ Retimed cfg pwm') ∨
      ((PwmCall.init config).request pwm = none ∧ pwm' = pwm) := by
  cases config with
  | none =>
    cases h
    exact .inr ⟨rfl, rfl⟩
  | some config =>
    by_cases ha : config.Valid ∧ pwm.initialized = false
    · refine .inl ⟨config, if_pos ha, ?_⟩
      obtain ⟨hvc, hi⟩ := ha
      simp only [init, hvc.1, hvc.2, hi, Bool.not_true, Bool.false_eq_true, if_false] at h
      exact retimed_of_updateTiming hvc rfl h
    · refine .inr ⟨if_neg ha, ?_⟩
      simp only [init] at h
      split at h
      · cases h; rfl
      · split at h
        · cases h; rfl
        · split at h
          · cases h; rfl
          · simp_all [PwmConfig.Valid]

theorem setDuty_cases {dutyCycle : UInt8} (hv : pwm.initialized = true → pwm.config.Valid)
    (h : pwm.setDuty dutyCycle = some (pwm', r)) :
    (∃ cfg, (PwmCall.setDuty dutyCycle).request pwm = some cfg ∧ Retimed cfg pwm') ∨
      ((PwmCall.setDuty dutyCycle).request pwm = none ∧ pwm' = pwm) := by
  by_cases ha : isValidDutyCycle dutyCycle = true ∧ pwm.initialized = true
  · refine .inl ⟨_, if_pos ha, ?_⟩
    obtain ⟨hd, hi⟩ := ha
    simp only [setDuty, hd, hi, Bool.not_true, Bool.false_eq_true, if_false] at h
    refine retimed_of_updateTiming ?_ ?_ h
    · exact ⟨(hv hi).1, hd⟩
    · rfl
  · refine .inr ⟨if_neg ha, ?_⟩
    simp only [setDuty] at h
    split at h
    · cases h; rfl
    · split at h
      · cases h; rfl
      · simp_all

theorem setFrequency_cases {frequencyHz : UInt32} (hv : pwm.initialized = true → pwm.config.Valid)
    (h : pwm.setFrequency frequencyHz = some (pwm', r)) :
    (∃ cfg, (PwmCall.setFrequency frequencyHz).request pwm = some cfg ∧ Retimed cfg pwm') ∨
      ((PwmCall.setFrequency frequencyHz).request pwm = none ∧ pwm' = pwm) := by
  by_cases ha : isValidFrequency frequencyHz = true ∧ pwm.initialized = true
  · refine .inl ⟨_, if_pos ha, ?_⟩
    obtain ⟨hf, hi⟩ := ha
    simp only [setFrequency, hf, hi, Bool.not_true, Bool.false_eq_true, if_false] at h
    refine retimed_of_updateTiming ?_ ?_ h
    · exact ⟨hf, (hv hi).2⟩
    · rfl
  · refine .inr ⟨if_neg ha, ?_⟩
    simp only [setFrequency] at h
    split at h
    · cases h; rfl
    · split at h
      · cases h; rfl
      · simp_all

theorem close_cases (h : pwm.close = some (pwm', r)) : pwm' = pwm ∨ pwm'.initialized = false := by
  unfold close at h
  split at h
  · cases h
    exact .inl rfl
  · split at h
    · obtain ⟨p, -, h⟩ := Option.bind_eq_some_iff.mp h
      cases h
      exact .inr rfl
    · cases h
      exact .inr rfl

/-- An accepted call sets the timing for its request; any other leaves the channel alone, closes
it, or starts or stops it. -/
theorem body_cases (hv : pwm.initialized = true → pwm.config.Valid)
    (h : c.body pwm = some (pwm', r)) :
    (∃ config, c.request pwm = some config ∧ Retimed config pwm') ∨
    (c.request pwm = none ∧
      (pwm' = pwm ∨ pwm'.initialized = false ∨ ∃ b, pwm' = { pwm with running := b })) := by
  cases c with
  | init config => exact (init_cases h).imp_right fun h => ⟨h.1, .inl h.2⟩
  | start =>
    refine .inr ⟨rfl, ?_⟩
    simp only [PwmCall.body, start] at h
    split at h <;> cases h
    · exact .inl rfl
    · exact .inr (.inr ⟨true, rfl⟩)
  | stop =>
    refine .inr ⟨rfl, ?_⟩
    simp only [PwmCall.body, stop] at h
    split at h <;> cases h
    · exact .inl rfl
    · exact .inr (.inr ⟨false, rfl⟩)
  | setDuty dutyCycle => exact (setDuty_cases hv h).imp_right fun h => ⟨h.1, .inl h.2⟩
  | setFrequency frequencyHz => exact (setFrequency_cases hv h).imp_right fun h => ⟨h.1, .inl h.2⟩
  | close => exact .inr ⟨rfl, (close_cases h).imp_right .inl⟩

theorem Timed.valid (h : pwm.Timed) : pwm.config.Valid :=
  PwmConfig.valid_iff.mpr ⟨h.one_le_frequency, h.frequency_le, h.duty_le⟩

theorem Timed.body (ht : pwm.initialized = true → pwm.Timed) (h : c.body pwm = some (pwm', r))
    (hfit : ∀ config, c.request pwm = some config → config.Fits)
    (hopen : pwm'.initialized = true) : pwm'.Timed := by
  obtain ⟨config, hq, hr⟩ | ⟨-, rfl | hclosed | ⟨b, rfl⟩⟩ :=
    body_cases (fun hi => (ht hi).valid) h
  · exact hr.timed_iff.mpr (hfit config hq)
  · exact ht hopen
  · rw [hopen] at hclosed
    cases hclosed
  · have hp := ht hopen
    exact ⟨hp.1, hp.2, hp.3, hp.4, hp.5, hp.6, hp.7⟩

/-- A channel whose timing is right after an accepted call was asked for what fits. -/
theorem Timed.fits (ht : pwm.initialized = true → pwm.Timed) (h : c.body pwm = some (pwm', r))
    (ht' : pwm'.initialized = true → pwm'.Timed) {config : PwmConfig}
    (hq : c.request pwm = some config) : config.Fits := by
  obtain ⟨config', hq', hr⟩ | ⟨hnone, -⟩ := body_cases (fun hi => (ht hi).valid) h
  · cases hq.symm.trans hq'
    exact hr.timed_iff.mp (ht' hr.initialized)
  · cases hq.symm.trans hnone

end PwmChannel

/-! ## Runs -/

namespace PwmChannels

/-- Every initialised channel has the right timing. -/
def AllTimed (channels : PwmChannels) : Prop :=
  ∀ k, (channels k).initialized = true → (channels k).Timed

/-- The event is not an accepted call for a configuration that does not fit. -/
def Fitting (channels : PwmChannels) (e : PwmEvent) : Prop :=
  ∀ k config, unitIndex pwmMaxChannels e.1.1 = some k →
    e.1.2.request (channels k) = some config → config.Fits

instance (channels : PwmChannels) (e : PwmEvent) : Decidable (channels.Fitting e) :=
  decidable_of_iff (∀ k, unitIndex pwmMaxChannels e.1.1 = some k →
    ((e.1.2.request (channels k)).all fun config => decide config.Fits) = true) <| by
      simp only [Fitting, Option.all_eq_true, decide_eq_true_eq]
      exact forall_congr' fun _ => forall_comm

variable {channels channels' : PwmChannels} {e : PwmEvent}

theorem step_eq : step = Units.step (fun c => unitIndex pwmMaxChannels c.1)
    (fun _ => .fail .absent) fun c => c.2.body := by
  funext channels e
  simp only [step, Units.step, PwmCall.run_eq]

theorem AllTimed.step (ht : channels.AllTimed) (hfit : channels.Fitting e)
    (h : PwmChannels.step channels e = some channels') : channels'.AllTimed := by
  intro k hopen
  rw [step_eq] at h
  rcases Units.step_cases h k with ⟨hk, hbody⟩ | ⟨-, hkept⟩
  · exact PwmChannel.Timed.body (ht k) hbody (fun config => hfit k config hk) hopen
  · rw [hkept] at hopen ⊢
    exact ht k hopen

theorem AllTimed.fitting (ht : channels.AllTimed)
    (h : PwmChannels.step channels e = some channels') (ht' : channels'.AllTimed) :
    channels.Fitting e := by
  intro k config hk hq
  rw [step_eq] at h
  rcases Units.step_cases h k with ⟨-, hbody⟩ | ⟨hne, -⟩
  · exact PwmChannel.Timed.fits (ht k) hbody (ht' k) hq
  · exact absurd hk hne

theorem allTimed_zero : AllTimed zero := by
  intro k hopen
  cases hopen

end PwmChannels

/-- Every state of a run has the right timing exactly when no accepted call of the run asks for
a configuration whose product of period and duty cycle exceeds 32 bits. -/
theorem pwm_timed_iff {es : List PwmEvent} {channels : PwmChannels}
    (h : exec PwmChannels.step .zero es = some channels) :
    (∀ pre post s, es = pre ++ post → exec PwmChannels.step .zero pre = some s → s.AllTimed) ↔
      Along PwmChannels.step PwmChannels.Fitting .zero es := by
  constructor
  · intro hall
    exact along_of_forall_prefix h hall fun _ _ _ _ _ hst hs ht => hs.fitting hst ht
  · rintro hA pre post s rfl hs
    exact exec_invariant (fun _ _ _ ht hfit hst => ht.step hfit hst) PwmChannels.allTimed_zero
      hA.left hs

/-- Channel 0 initialised for 100 Hz at half width. -/
def pwmInitialized : PwmEvent := ((0, .init (some ⟨100, 50⟩)), .plain 0 .absent)

/-- The channel is then started, and its width and its frequency are changed. -/
def pwmChanged : List PwmEvent :=
  [pwmInitialized, ((0, .start), .plain 0 .absent), ((0, .setDuty 75), .plain 0 .absent),
    ((0, .setFrequency 400), .plain 0 .absent)]

theorem pwm_timed_iff_changed : ∃ channels,
    exec PwmChannels.step .zero pwmChanged = some channels ∧
    (∃ k, (channels k).initialized = true ∧ (channels k).config = ⟨400, 75⟩ ∧
      (channels k).dutyNs = 1875000) ∧
    ∀ pre post s, pwmChanged = pre ++ post → exec PwmChannels.step .zero pre = some s →
      s.AllTimed := by
  have hrun : (exec PwmChannels.step .zero pwmChanged).any (fun channels => decide
      (∃ k, (channels k).initialized = true ∧ (channels k).config = ⟨400, 75⟩ ∧
        (channels k).dutyNs = 1875000)) = true := by
    decide
  have hfit : Along PwmChannels.step PwmChannels.Fitting .zero pwmChanged := by decide
  obtain ⟨channels, h, hset⟩ := exists_exec_of_any hrun
  exact ⟨channels, h, hset, (pwm_timed_iff h).mpr hfit⟩

/-- At 1 Hz and 100 %, the pulse is shorter than the period. -/
theorem pwm_pulse_wraps : ∃ channels : PwmChannels,
    exec PwmChannels.step .zero [((0, .init (some ⟨1, 100⟩)), .plain 0 .absent)] =
      some channels ∧
    (∃ k, (channels k).initialized = true ∧ (channels k).config = ⟨1, 100⟩ ∧
      (channels k).periodNs = 1000000000 ∧ (channels k).dutyNs = 12157521) ∧
    ¬ channels.AllTimed := by
  have hrun : (exec PwmChannels.step .zero
      [((0, .init (some ⟨1, 100⟩)), .plain 0 .absent)]).any (fun channels => decide
      (∃ k, (channels k).initialized = true ∧ (channels k).config = ⟨1, 100⟩ ∧
        (channels k).periodNs = 1000000000 ∧ (channels k).dutyNs = 12157521)) = true := by
    decide
  obtain ⟨channels, h, k, hopen, hc, hp, hd⟩ := exists_exec_of_any hrun
  refine ⟨channels, h, ⟨k, hopen, hc, hp, hd⟩, fun hall => ?_⟩
  have hfull := (hall k hopen).full (by rw [hc]; rfl)
  rw [hp, hd] at hfull
  exact absurd hfull (by decide)

end Simulith
