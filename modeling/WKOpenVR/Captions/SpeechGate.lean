import Mathlib.Algebra.Order.Field.Basic
import Mathlib.Tactic.Linarith

/-!
# The adaptive speech gate

The captions tell speech from silence by the probability of the voice detection and by the
levels of a frame, its peak and its RMS. The thresholds for the levels adapt to the ambient
levels (`AdaptiveSpeechGate`), which move with every frame that is taken as ambient, and with
every segment that was rejected.

The ambient levels stay in the range they are clamped to (`InRange.observe`), in which the
thresholds are ordered (`silencePeakThreshold_lt`): each of the tests for speech by energy asks
for a peak above the one that silence allows. Therefore a frame is never both silence and
possible speech (`not_isSilence_and_isPossibleSpeech`). Levels are elements of an ordered field.
-/

namespace WKOpenVR.Captions

variable {K : Type*} [Field K] [LinearOrder K]

structure AdaptiveSpeechGate (K : Type*) where
  ambientPeak : K
  ambientRms : K

namespace AdaptiveSpeechGate

def initial : AdaptiveSpeechGate K where
  ambientPeak := 0.004
  ambientRms := 0.0015

def clamp (value lo hi : K) : K := max lo (min value hi)

section Thresholds

variable (g : AdaptiveSpeechGate K)

def speechPeakThreshold : K := clamp (g.ambientPeak * 3.6 + 0.018) 0.028 0.14

def speechRmsThreshold : K := clamp (g.ambientRms * 3.2 + 0.006) 0.010 0.065

def silencePeakThreshold : K :=
  clamp (g.ambientPeak * 1.6 + 0.006) 0.014 (g.speechPeakThreshold * 0.70)

def silenceRmsThreshold : K :=
  clamp (g.ambientRms * 1.7 + 0.003) 0.006 (g.speechRmsThreshold * 0.72)

def possibleSpeechPeakThreshold : K :=
  max (g.silencePeakThreshold * 1.40) (g.speechPeakThreshold * 0.62)

def possibleSpeechRmsThreshold : K :=
  max (g.silenceRmsThreshold * 1.35) (g.speechRmsThreshold * 0.62)

end Thresholds

section Tests

variable (g : AdaptiveSpeechGate K) (vadProbability framePeak frameRms : K)

def hasSpeechEnergy : Bool :=
  let absolute := decide (g.speechPeakThreshold ≤ framePeak ∧ g.speechRmsThreshold ≤ frameRms)
  let relative :=
    decide (g.ambientPeak * 4.0 + 0.012 ≤ framePeak ∧ g.ambientRms * 3.0 + 0.004 ≤ frameRms)
  let strongPeakWithBody :=
    decide (g.speechPeakThreshold * 1.6 ≤ framePeak ∧ g.speechRmsThreshold * 0.82 ≤ frameRms)
  absolute || relative || strongPeakWithBody

def hasPossibleSpeechEnergy : Bool :=
  decide (g.possibleSpeechPeakThreshold ≤ framePeak ∧ g.possibleSpeechRmsThreshold ≤ frameRms)

def isSpeech : Bool :=
  if 0.5 ≤ vadProbability then true
  else if g.hasSpeechEnergy framePeak frameRms then true
  else decide (0.32 ≤ vadProbability) && g.hasPossibleSpeechEnergy framePeak frameRms

def isSilence : Bool :=
  decide (vadProbability < 0.35 ∧ framePeak ≤ g.silencePeakThreshold ∧
    frameRms ≤ g.silenceRmsThreshold)

def isPossibleSpeech : Bool :=
  if g.isSpeech vadProbability framePeak frameRms then true
  else if 0.20 ≤ vadProbability ∧ g.hasPossibleSpeechEnergy framePeak frameRms then true
  else g.hasPossibleSpeechEnergy framePeak frameRms

end Tests

/-- An ambient level after one of a frame, with the rates for going up and down. -/
def adapt (ambient level up down lo hi : K) : K :=
  let alpha := if ambient < level then up else down
  clamp (ambient + (level - ambient) * alpha) lo hi

variable (g : AdaptiveSpeechGate K)

def observeAmbient (framePeak frameRms : K) : AdaptiveSpeechGate K where
  ambientPeak := adapt g.ambientPeak (clamp framePeak 0 1) 0.015 0.08 0.001 0.25
  ambientRms := adapt g.ambientRms (clamp frameRms 0 1) 0.020 0.10 0.0005 0.18

/-- The segment is taken as ambient, unless the voice detection heard a voice in it. -/
def observeRejectedSegment
    (maxVadProbability maxFramePeak maxFrameRms : K) : AdaptiveSpeechGate K × Bool :=
  if 0.45 ≤ maxVadProbability then (g, false)
  else (g.observeAmbient maxFramePeak maxFrameRms, true)

inductive Call (K : Type*)
  | observeAmbient (framePeak frameRms : K)
  /-- The overload without an RMS, for which it takes half of the peak. -/
  | observeAmbientPeak (framePeak : K)
  | observeRejectedSegment (maxVadProbability maxFramePeak maxFrameRms : K)

def observe : Call K → AdaptiveSpeechGate K
  | .observeAmbient framePeak frameRms => g.observeAmbient framePeak frameRms
  | .observeAmbientPeak framePeak => g.observeAmbient framePeak (framePeak * 0.5)
  | .observeRejectedSegment maxVadProbability maxFramePeak maxFrameRms =>
    (g.observeRejectedSegment maxVadProbability maxFramePeak maxFrameRms).1

def after (calls : List (Call K)) : AdaptiveSpeechGate K := calls.foldl observe initial

/-! ## The ambient levels -/

/-- The ranges the ambient levels are clamped to. -/
structure InRange (g : AdaptiveSpeechGate K) : Prop where
  peak : g.ambientPeak ∈ Set.Icc 0.001 0.25
  rms : g.ambientRms ∈ Set.Icc 0.0005 0.18

omit [Field K] in
theorem clamp_mem {lo hi : K} (h : lo ≤ hi) (value : K) : clamp value lo hi ∈ Set.Icc lo hi :=
  ⟨le_max_left lo _, max_le h (min_le_right value hi)⟩

variable [IsStrictOrderedRing K]

theorem inRange_initial : (initial : AdaptiveSpeechGate K).InRange := by
  constructor
  · constructor
    · norm_num [initial]
    · norm_num [initial]
  · constructor
    · norm_num [initial]
    · norm_num [initial]

theorem inRange_observeAmbient (g : AdaptiveSpeechGate K) (framePeak frameRms : K) :
    (g.observeAmbient framePeak frameRms).InRange := by
  constructor
  · exact clamp_mem (by norm_num) _
  · exact clamp_mem (by norm_num) _

theorem InRange.observe {g : AdaptiveSpeechGate K} (h : g.InRange) (call : Call K) :
    (g.observe call).InRange := by
  cases call with
  | observeAmbient framePeak frameRms => exact inRange_observeAmbient g framePeak frameRms
  | observeAmbientPeak framePeak => exact inRange_observeAmbient g framePeak _
  | observeRejectedSegment maxVadProbability maxFramePeak maxFrameRms =>
    rw [AdaptiveSpeechGate.observe, observeRejectedSegment]
    split_ifs
    · exact h
    · exact inRange_observeAmbient g maxFramePeak maxFrameRms

theorem inRange_after (calls : List (Call K)) : (after calls).InRange := by
  have hfold (g : AdaptiveSpeechGate K) (hg : g.InRange) : (calls.foldl observe g).InRange := by
    induction calls generalizing g with
    | nil => exact hg
    | cons call calls ih => exact ih (g.observe call) (hg.observe call)
  exact hfold initial inRange_initial

/-! ## The order of the thresholds -/

omit [IsStrictOrderedRing K] in
theorem le_speechPeakThreshold : 0.028 ≤ g.speechPeakThreshold :=
  le_max_left _ _

theorem silencePeakThreshold_pos (g : AdaptiveSpeechGate K) : 0 < g.silencePeakThreshold := by
  have hlow : (0.014 : K) ≤ g.silencePeakThreshold := le_max_left _ _
  have hpos : (0 : K) < 0.014 := by norm_num
  exact hpos.trans_le hlow

/-- Silence ends below the threshold of speech, and below the one relative to the ambient
peak. -/
theorem silencePeakThreshold_lt {g : AdaptiveSpeechGate K} (h : g.InRange) :
    g.silencePeakThreshold < g.speechPeakThreshold ∧
      g.silencePeakThreshold < g.ambientPeak * 4.0 + 0.012 := by
  have hspeech := g.le_speechPeakThreshold
  have hambient := h.peak.1
  constructor
  · refine max_lt ?_ ((min_le_right _ _).trans_lt ?_)
    · linarith
    · linarith
  · refine max_lt ?_ ((min_le_left _ _).trans_lt ?_)
    · linarith
    · linarith

theorem silencePeakThreshold_lt_possible (g : AdaptiveSpeechGate K) :
    g.silencePeakThreshold < g.possibleSpeechPeakThreshold := by
  have hpos := g.silencePeakThreshold_pos
  refine lt_of_lt_of_le ?_ (le_max_left _ _)
  linarith

/-! ## Silence and speech -/

section Exclusive

variable {g} {framePeak : K}

theorem hasPossibleSpeechEnergy_of_le (h : framePeak ≤ g.silencePeakThreshold) (frameRms : K) :
    g.hasPossibleSpeechEnergy framePeak frameRms = false := by
  have hpossible := g.silencePeakThreshold_lt_possible
  refine decide_eq_false fun hle => ?_
  exact absurd hle.1 (h.trans_lt hpossible).not_ge

theorem hasSpeechEnergy_of_le (hg : g.InRange) (h : framePeak ≤ g.silencePeakThreshold)
    (frameRms : K) : g.hasSpeechEnergy framePeak frameRms = false := by
  obtain ⟨hspeech, hrelative⟩ := silencePeakThreshold_lt hg
  have hpos := g.silencePeakThreshold_pos
  -- The RMS plays no part: in each of the tests the peak is too low.
  have habsolute : ¬g.speechPeakThreshold ≤ framePeak := (h.trans_lt hspeech).not_ge
  have hrelative' : ¬g.ambientPeak * 4.0 + 0.012 ≤ framePeak := (h.trans_lt hrelative).not_ge
  have hstrong : ¬g.speechPeakThreshold * 1.6 ≤ framePeak := by
    intro hle
    linarith
  simp only [hasSpeechEnergy, habsolute, hrelative', hstrong, false_and, decide_false,
    Bool.or_false]

theorem isPossibleSpeech_of_isSilence (hg : g.InRange) {vadProbability frameRms : K}
    (h : g.isSilence vadProbability framePeak frameRms = true) :
    g.isPossibleSpeech vadProbability framePeak frameRms = false := by
  obtain ⟨hvad, hpeak, -⟩ := of_decide_eq_true h
  have hpossible := hasPossibleSpeechEnergy_of_le hpeak frameRms
  have hspeech : g.isSpeech vadProbability framePeak frameRms = false := by
    have hvoice : ¬0.5 ≤ vadProbability := by
      intro hle
      linarith
    rw [isSpeech, if_neg hvoice, hasSpeechEnergy_of_le hg hpeak, hpossible]
    simp
  rw [isPossibleSpeech, hspeech, hpossible]
  simp

end Exclusive

/-- After any calls, a frame is not both silence and possible speech. -/
theorem not_isSilence_and_isPossibleSpeech (calls : List (Call K))
    (vadProbability framePeak frameRms : K) :
    ¬((after calls).isSilence vadProbability framePeak frameRms = true ∧
      (after calls).isPossibleSpeech vadProbability framePeak frameRms = true) := by
  rintro ⟨hsilence, hpossible⟩
  rw [isPossibleSpeech_of_isSilence (inRange_after calls) hsilence] at hpossible
  cases hpossible

/-- Silence, after a loud frame and a rejected segment. -/
theorem not_isSilence_and_isPossibleSpeech_rat :
    (after [.observeAmbient 0.5 0.2, .observeRejectedSegment 0.1 0.04 0.02]).isSilence
        (0.1 : ℚ) 0.02 0.008 = true ∧
      ¬((after [.observeAmbient 0.5 0.2, .observeRejectedSegment 0.1 0.04 0.02]).isSilence
          (0.1 : ℚ) 0.02 0.008 = true ∧
        (after [.observeAmbient 0.5 0.2, .observeRejectedSegment 0.1 0.04 0.02]).isPossibleSpeech
          (0.1 : ℚ) 0.02 0.008 = true) :=
  ⟨by decide +kernel, not_isSilence_and_isPossibleSpeech _ _ _ _⟩

end AdaptiveSpeechGate

end WKOpenVR.Captions
