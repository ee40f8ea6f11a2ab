/-
  Babycat.Analyzer.State

  The analyzer's shared runtime state (`state.py`).

  Every method of `AppState` takes the state lock once, so each definition
  below is one atomic step of whoever calls it.  What only the SSE snapshot
  reads (source, frame size, VLM state, counters of the UI) is left out.
-/

import Babycat.Analyzer.Settings
import Mathlib.Algebra.Order.Field.Rat

namespace Babycat.Analyzer

open Babycat.Text (PyStr pyStr)

inductive PipelineState
  | idle
  | starting
  | restarting
  | streaming
  | stalled
  deriving DecidableEq

structure AppState where
  inferRaw : PyStr
  inferMs : ℤ
  eventTriggered : Bool
  inferencePrompt : PyStr
  triggerKeywords : List PyStr
  labelGroups : Labels
  presets : List Preset
  activePreset : PyStr
  analysisActive : Bool
  pipelineState : PipelineState
  pipelineStateDetail : String
  pipelineStartedAt : ℚ
  pipelineLastFrameAt : ℚ
  pipelineRestartCount : ℕ
  deriving DecidableEq

namespace AppState

variable (a : AppState)

def setPrompt (prompt : PyStr) : AppState := { a with inferencePrompt := prompt }

def setTriggers (keywords : List PyStr) : AppState := { a with triggerKeywords := keywords }

def setLabelGroups (labels : Labels) : AppState := { a with labelGroups := labels }

def setPresets (presets : List Preset) : AppState := { a with presets := presets }

def setActivePreset (presetId : PyStr) : AppState := { a with activePreset := presetId }

/-- Dropping the flag also clears the last judgment. -/
def setAnalysisActive (active : Bool) : AppState :=
  if active then { a with analysisActive := true }
  else { a with analysisActive := false, inferRaw := [], eventTriggered := false }

def updateInference (raw : PyStr) (elapsedMs : ℤ) (eventTriggered : Bool) : AppState :=
  { a with inferRaw := raw, inferMs := elapsedMs, eventTriggered := eventTriggered }

/-- A frame of a pipeline that was torn down does not count after a stop. -/
def updateFrame (now : ℚ) : AppState :=
  if a.analysisActive then
    { a with
      pipelineLastFrameAt := now
      pipelineStartedAt := if a.pipelineStartedAt = 0 then now else a.pipelineStartedAt
      pipelineState := .streaming
      pipelineStateDetail := "" }
  else a

def markPipelineStarting (reason : String) (restart : Bool) (startedAt : ℚ) : AppState :=
  { a with
    pipelineState := if restart then .restarting else .starting
    pipelineStateDetail := reason
    pipelineStartedAt := startedAt
    pipelineLastFrameAt := 0
    pipelineRestartCount :=
      if restart then a.pipelineRestartCount + 1 else a.pipelineRestartCount }

def markPipelineIdle (reason : String) : AppState :=
  { a with
    pipelineState := .idle
    pipelineStateDetail := reason
    pipelineStartedAt := 0
    pipelineLastFrameAt := 0 }

def markPipelineStalled (reason : String) : AppState :=
  { a with pipelineState := .stalled, pipelineStateDetail := reason }

/-- The five values that are persisted. -/
def settings : Saved where
  prompt := a.inferencePrompt
  keywords := a.triggerKeywords
  labels := a.labelGroups
  presets := a.presets
  analysisActive := a.analysisActive

/-! ## What the methods leave alone -/

variable (now : ℚ)

@[simp] theorem updateFrame_analysisActive :
    (a.updateFrame now).analysisActive = a.analysisActive := by
  simp only [updateFrame]
  split <;> rfl

@[simp] theorem updateFrame_settings : (a.updateFrame now).settings = a.settings := by
  simp only [updateFrame]
  split <;> rfl

@[simp] theorem updateFrame_judgment : (a.updateFrame now).inferRaw = a.inferRaw ∧
    (a.updateFrame now).eventTriggered = a.eventTriggered := by
  simp only [updateFrame]
  split <;> exact ⟨rfl, rfl⟩

end AppState

end Babycat.Analyzer
