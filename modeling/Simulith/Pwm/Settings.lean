import Simulith.Lts.Latest
import Simulith.Pwm.Timing

/-!
# The settings of a PWM channel

`Settled es pwm` reads a channel's state off the calls made to it: its
configuration is what was accepted last, its timing what an init for that
configuration computes, and it runs when it was last started. `Does` lists
what a call can do to a channel, and `follows` carries the reading along a run
(`pwm_settled`).
-/

namespace Simulith

open Lts

/-- The calls of a run that name channel `k`. -/
def PwmChannels.on (k : Fin pwmMaxChannels) (es : List PwmEvent) : List PwmEvent :=
  Units.on (fun c : UInt8 × PwmCall => unitIndex pwmMaxChannels c.1) k es

namespace PwmChannel

/-! ## The history of a channel -/

/-- A successful init. -/
def opened : PwmEvent → Option Unit
  | ((_, .init _), r) => if r.ret = 0 then some () else none
  | _ => none

def acceptedFrequency : PwmEvent → Option UInt32
  | ((_, .init (some config)), r) => if r.ret = 0 then some config.frequencyHz else none
  | ((_, .setFrequency frequencyHz), r) => if r.ret = 0 then some frequencyHz else none
  | _ => none

def acceptedDuty : PwmEvent → Option UInt8
  | ((_, .init (some config)), r) => if r.ret = 0 then some config.dutyCycle else none
  | ((_, .setDuty dutyCycle), r) => if r.ret = 0 then some dutyCycle else none
  | _ => none

/-- Whether a successful start or stop is a start. -/
def switched : PwmEvent → Option Bool
  | ((_, .start), r) => if r.ret = 0 then some true else none
  | ((_, .stop), r) => if r.ret = 0 then some false else none
  | _ => none

/-- The channel is what the calls `es` to it have asked for. -/
structure Settled (es : List PwmEvent) (pwm : PwmChannel) : Prop where
  frequency : pwm.initialized = true → latest acceptedFrequency es = some pwm.config.frequencyHz
  duty : pwm.initialized = true → latest acceptedDuty es = some pwm.config.dutyCycle
  timing : pwm.initialized = true → ∀ closed : PwmChannel, closed.initialized = false →
    ∃ ref, closed.init (some pwm.config) = some (ref, .plain 0 .absent) ∧
      pwm.periodNs = ref.periodNs ∧ pwm.dutyNs = ref.dutyNs
  running_iff : pwm.initialized = true →
    (pwm.running = true ↔ latest switched (since opened es) = some true)
  running_open : pwm.running = true → pwm.initialized = true

/-! ## What a call does to a channel -/

variable {pwm pwm' : PwmChannel} {c : PwmCall} {r : Result} {es : List PwmEvent} {ch : UInt8}

/-- The channel set to `config`, its timing computed for it. -/
def set (pwm : PwmChannel) (config : PwmConfig) : PwmChannel where
  initialized := pwm.initialized
  running := pwm.running
  config := config
  periodNs := (1000000000 / config.frequencyHz.toUInt64).toUInt32
  dutyNs := (1000000000 / config.frequencyHz.toUInt64).toUInt32 * config.dutyCycle.toUInt32 / 100

/-- What a call can do to a channel, and what it returns. -/
inductive Does (pwm : PwmChannel) : PwmCall → PwmChannel → Result → Prop where
  | fail {c : PwmCall} : Does pwm c pwm (.fail .absent)
  | init (config : PwmConfig) (hclosed : pwm.initialized = false) (hv : config.Valid) :
    Does pwm (.init (some config)) (set { pwm with initialized := true, running := false } config)
      (.plain 0 .absent)
  | start (hopen : pwm.initialized = true) :
    Does pwm .start { pwm with running := true } (.plain 0 .absent)
  | stop (hopen : pwm.initialized = true) :
    Does pwm .stop { pwm with running := false } (.plain 0 .absent)
  | setDuty (dutyCycle : UInt8) (hopen : pwm.initialized = true)
    (hv : isValidDutyCycle dutyCycle = true) :
    Does pwm (.setDuty dutyCycle) (pwm.set { pwm.config with dutyCycle := dutyCycle })
      (.plain 0 .absent)
  | setFrequency (frequencyHz : UInt32) (hopen : pwm.initialized = true)
    (hv : isValidFrequency frequencyHz = true) :
    Does pwm (.setFrequency frequencyHz) (pwm.set { pwm.config with frequencyHz := frequencyHz })
      (.plain 0 .absent)
  | close (hopen : pwm.initialized = true) :
    Does pwm .close { pwm with initialized := false, running := false } (.plain 0 .absent)

theorem updateTiming_some (pwm : PwmChannel) {config : PwmConfig}
    (h : ({ pwm with config := config } : PwmChannel).updateTiming = some pwm') :
    pwm' = pwm.set config := by
  unfold updateTiming at h
  split at h
  · cases h
  · cases h
    rfl

theorem does (h : c.body pwm = some (pwm', r)) : Does pwm c pwm' r := by
  cases c with
  | init config =>
    simp only [PwmCall.body, PwmChannel.init] at h
    split at h
    · cases h
      exact .fail
    · next config =>
      split at h
      · cases h
        exact .fail
      · next hf =>
        split at h
        · cases h
          exact .fail
        · next hd =>
          split at h
          · cases h
            exact .fail
          · next hc =>
            obtain ⟨p, hp, h⟩ := Option.bind_eq_some_iff.mp h
            cases h
            rw [updateTiming_some { pwm with initialized := true, running := false } hp]
            exact .init config (by simpa using hc) ⟨by simpa using hf, by simpa using hd⟩
  | start =>
    simp only [PwmCall.body, PwmChannel.start] at h
    split at h
    · cases h
      exact .fail
    · next ho =>
      cases h
      exact .start (by simpa using ho)
  | stop =>
    simp only [PwmCall.body, PwmChannel.stop] at h
    split at h
    · cases h
      exact .fail
    · next ho =>
      cases h
      exact .stop (by simpa using ho)
  | setDuty dutyCycle =>
    simp only [PwmCall.body, PwmChannel.setDuty] at h
    split at h
    · cases h
      exact .fail
    · next hd =>
      split at h
      · cases h
        exact .fail
      · next ho =>
        obtain ⟨p, hp, h⟩ := Option.bind_eq_some_iff.mp h
        cases h
        rw [updateTiming_some pwm hp]
        exact .setDuty dutyCycle (by simpa using ho) (by simpa using hd)
  | setFrequency frequencyHz =>
    simp only [PwmCall.body, PwmChannel.setFrequency] at h
    split at h
    · cases h
      exact .fail
    · next hf =>
      split at h
      · cases h
        exact .fail
      · next ho =>
        obtain ⟨p, hp, h⟩ := Option.bind_eq_some_iff.mp h
        cases h
        rw [updateTiming_some pwm hp]
        exact .setFrequency frequencyHz (by simpa using ho) (by simpa using hf)
  | close =>
    simp only [PwmCall.body, PwmChannel.close] at h
    split at h
    · cases h
      exact .fail
    · next ho =>
      have hopen : pwm.initialized = true := by simpa using ho
      split at h
      · -- a running channel is stopped first
        simp only [PwmChannel.stop, if_neg ho] at h
        cases h
        exact .close hopen
      · next hrun =>
        have hstopped : pwm.running = false := by simpa using hrun
        cases h
        rw [hstopped]
        exact .close hopen

/-! ## One more call -/

/-- What `Settled` comes from: an initialised channel is at the accepted settings, which are valid,
and its timing is theirs. -/
structure Follows (es : List PwmEvent) (pwm : PwmChannel) : Prop where
  frequency : latest acceptedFrequency es = some pwm.config.frequencyHz
  duty : latest acceptedDuty es = some pwm.config.dutyCycle
  valid : pwm.config.Valid
  set_eq : pwm.set pwm.config = pwm
  running_iff : pwm.running = true ↔ latest switched (since opened es) = some true

/-- A channel that is not initialised is not running. -/
def Halted (pwm : PwmChannel) : Prop := pwm.initialized = false → pwm.running = false

theorem init_of_valid {config : PwmConfig} (hv : config.Valid) (hc : pwm.initialized = false) :
    pwm.init (some config) =
      some (set { pwm with initialized := true, running := false } config, .plain 0 .absent) := by
  have hne : config.frequencyHz ≠ 0 := by
    intro h0
    have := (PwmConfig.valid_iff.mp hv).1
    rw [h0] at this
    exact absurd this (by decide)
  simp only [init, hv.1, hv.2, hc, Bool.not_true, Bool.false_eq_true, if_false, updateTiming,
    if_neg hne]
  rfl

theorem Follows.keep {e : PwmEvent} {b : Bool} (hf : Follows es pwm) (ho : opened e = none)
    (hq : acceptedFrequency e = none) (hd : acceptedDuty e = none)
    (hb : b = true ↔ latest switched (since opened es ++ [e]) = some true) :
    Follows (es ++ [e]) { pwm with running := b } where
  frequency := by rw [latest_snoc_none hq, hf.frequency]
  duty := by rw [latest_snoc_none hd, hf.duty]
  valid := hf.valid
  set_eq := congrArg (fun p : PwmChannel => { p with running := b }) hf.set_eq
  running_iff := by rw [since_snoc_none ho, hb]

theorem Follows.reset {e : PwmEvent} {config : PwmConfig} (hf : Follows es pwm)
    (ho : opened e = none) (hs : switched e = none)
    (hq : latest acceptedFrequency (es ++ [e]) = some config.frequencyHz)
    (hd : latest acceptedDuty (es ++ [e]) = some config.dutyCycle) (hv : config.Valid) :
    Follows (es ++ [e]) (pwm.set config) where
  frequency := hq
  duty := hd
  valid := hv
  set_eq := rfl
  running_iff := by
    rw [since_snoc_none ho, latest_snoc_none hs]
    exact hf.running_iff

theorem quiet_of_fail : opened ((ch, c), .fail .absent) = none ∧
    acceptedFrequency ((ch, c), .fail .absent) = none ∧
    acceptedDuty ((ch, c), .fail .absent) = none ∧ switched ((ch, c), .fail .absent) = none := by
  cases c with
  | init config => cases config <;> exact ⟨rfl, rfl, rfl, rfl⟩
  | _ => exact ⟨rfl, rfl, rfl, rfl⟩

theorem Follows.step (hf : pwm.initialized = true → Follows es pwm)
    (h : c.body pwm = some (pwm', r)) (hopen : pwm'.initialized = true) :
    Follows (es ++ [((ch, c), r)]) pwm' := by
  cases does h with
  | fail =>
    obtain ⟨ho, hq, hd, hs⟩ := quiet_of_fail
    refine (hf hopen).keep ho hq hd ?_
    rw [latest_snoc_none hs]
    exact (hf hopen).running_iff
  | init config _ hv =>
    refine ⟨latest_snoc_some rfl, latest_snoc_some rfl, hv, rfl, ?_⟩
    -- nothing has started the channel since
    rw [since_snoc_some (f := opened) rfl, latest_nil]
    exact iff_of_false Bool.false_ne_true nofun
  | start hi =>
    refine (hf hi).keep rfl rfl rfl ?_
    rw [latest_snoc_some (f := switched) rfl]
    exact iff_of_true rfl rfl
  | stop hi =>
    refine (hf hi).keep rfl rfl rfl ?_
    rw [latest_snoc_some (f := switched) rfl]
    exact iff_of_false Bool.false_ne_true (by simp)
  | setDuty dutyCycle hi hv =>
    refine (hf hi).reset rfl rfl ?_ (latest_snoc_some rfl) ⟨(hf hi).valid.1, hv⟩
    rw [latest_snoc_none rfl, (hf hi).frequency]
  | setFrequency frequencyHz hi hv =>
    refine (hf hi).reset rfl rfl (latest_snoc_some rfl) ?_ ⟨hv, (hf hi).valid.2⟩
    rw [latest_snoc_none rfl, (hf hi).duty]
  | close hi => cases hopen

theorem Halted.step (hh : pwm.Halted) (h : c.body pwm = some (pwm', r)) : pwm'.Halted := by
  intro hc
  cases does h with
  | fail => exact hh hc
  | init config _ hv => cases hc
  | start hi => cases hi.symm.trans hc
  | stop hi => rfl
  | setDuty dutyCycle hi hv => exact hh hc
  | setFrequency frequencyHz hi hv => exact hh hc
  | close hi => rfl

theorem Follows.settled (hf : pwm.initialized = true → Follows es pwm) (hh : pwm.Halted) :
    Settled es pwm where
  frequency hi := (hf hi).frequency
  duty hi := (hf hi).duty
  timing hi closed hc := by
    refine ⟨_, init_of_valid (hf hi).valid hc, ?_, ?_⟩
    · exact (congrArg periodNs (hf hi).set_eq).symm
    · exact (congrArg dutyNs (hf hi).set_eq).symm
  running_iff hi := (hf hi).running_iff
  running_open hr := by
    by_contra hi
    rw [hh (by simpa using hi)] at hr
    cases hr

end PwmChannel

/-! ## Runs -/

/-- After every run, each channel is what the calls to it have asked for. -/
theorem pwm_settled {es : List PwmEvent} {channels : PwmChannels}
    (h : exec PwmChannels.step .zero es = some channels) (k : Fin pwmMaxChannels) :
    PwmChannel.Settled (PwmChannels.on k es) (channels k) := by
  rw [PwmChannels.step_eq] at h
  have hinv : ((channels k).initialized = true →
      PwmChannel.Follows (PwmChannels.on k es) (channels k)) ∧ (channels k).Halted := by
    refine exec_trace (H := fun es pwm => (pwm.initialized = true → PwmChannel.Follows es pwm) ∧
      pwm.Halted) ⟨fun hi => ?_, fun _ => rfl⟩ (fun es pwm e pwm' hi hst => ?_) (Units.exec_on h k)
    · cases hi
    · have hbody := answer_eq_some.mp hst
      exact ⟨PwmChannel.Follows.step hi.1 hbody, hi.2.step hbody⟩
  exact PwmChannel.Follows.settled hinv.1 hinv.2

theorem pwm_settled_initialized : ∃ channels,
    exec PwmChannels.step .zero
      [pwmInitialized, ((0, .start), .plain 0 .absent), ((0, .setDuty 10), .plain 0 .absent)] =
        some channels ∧
    ∀ k, PwmChannel.Settled (PwmChannels.on k
      [pwmInitialized, ((0, .start), .plain 0 .absent), ((0, .setDuty 10), .plain 0 .absent)])
      (channels k) := by
  have hrun : (exec PwmChannels.step .zero
      [pwmInitialized, ((0, .start), .plain 0 .absent),
        ((0, .setDuty 10), .plain 0 .absent)]).isSome = true := by
    decide
  obtain ⟨channels, h⟩ := Option.isSome_iff_exists.mp hrun
  exact ⟨channels, h, fun k => pwm_settled h k⟩

end Simulith
