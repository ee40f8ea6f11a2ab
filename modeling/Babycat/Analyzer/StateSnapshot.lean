/-
  Babycat.Analyzer.StateSnapshot

  What the analyzer shows of its state (`state.py`: `snapshot`, and the methods
  that change what it shows).

  A method that changes a field of `pushedKeys` also tells the subscribers of
  the event stream; the others do not, and what they change is seen with the
  next message.  `unpushed_shown` says that no method leaves a change of these
  fields untold.  The two ages are exact times, rounded to a tenth.
-/

import Babycat.Analyzer.Runtime
import Mathlib.Data.List.AList

namespace Babycat.Monitor

open Babycat.Analyzer (Labels Preset PipelineState roundHalfEven)
open Babycat.Text (PyStr pyStr)

/-- A value of a snapshot. -/
inductive Value
  | none
  | bool (b : Bool)
  | int (n : ℤ)
  | number (q : ℚ)
  | text (s : PyStr)
  | ints (l : List ℤ)
  | texts (l : List String)
  | labels (l : Labels)
  | presets (l : List Preset)
  /-- For each source of the merged snapshot, whether it is there. -/
  | sources (l : List (String × Bool))
  deriving DecidableEq

/-- A Python dict with text keys. -/
abbrev Dict := AList fun _ : String => Value

/-- A field of a dict. -/
abbrev item (key : String) (value : Value) : Sigma fun _ : String => Value := ⟨key, value⟩

-- ============================================================================
-- The state
-- ============================================================================

/-- The whole of `AppState` but for the image of the last frame. -/
structure AppState extends Analyzer.AppState where
  frameW : ℕ
  frameH : ℕ
  sourceProtocol : String
  sourceTransport : String
  config : List (String × ℚ)
  vlmState : String
  vlmError : String
  vlmModels : List String
  vlmCurrentModel : String
  /-- While frames flow there is no detail. -/
  streaming : pipelineState = .streaming → pipelineStateDetail = ""

def pipelineStateName : PipelineState → String
  | .idle => "idle"
  | .starting => "starting"
  | .restarting => "restarting"
  | .streaming => "streaming"
  | .stalled => "stalled"

namespace AppState

variable (a : AppState)

/-- `_current_pipeline_state_detail_locked` -/
def currentDetail : String :=
  if a.pipelineStateDetail = "waiting_for_vlm" ∧ a.vlmState = "ready" then ""
  else a.pipelineStateDetail

/-- `round(max(0.0, now - since), 1)`, or `None` -/
def age (now since : ℚ) : Value :=
  if 0 < since then .number (roundHalfEven (max 0 (now - since) * 10) / 10) else .none

/-- `_inference_snapshot_locked` -/
def inferenceSnapshot : Dict :=
  [item "frame_w" (.int a.frameW), item "frame_h" (.int a.frameH),
    item "infer_raw" (.text a.inferRaw), item "infer_ms" (.int a.inferMs)].toAList

/-- `_stream_snapshot_locked` -/
def streamSnapshot (now : ℚ) : Dict :=
  [item "pipeline_state" (.text (pyStr (pipelineStateName a.pipelineState))),
    item "pipeline_state_detail" (.text (pyStr a.currentDetail)),
    item "pipeline_source_protocol" (.text (pyStr a.sourceProtocol)),
    item "pipeline_source_transport" (.text (pyStr a.sourceTransport)),
    item "pipeline_active_for_s" (age now a.pipelineStartedAt),
    item "pipeline_last_frame_age_s" (age now a.pipelineLastFrameAt),
    item "pipeline_restart_count" (.int a.pipelineRestartCount)].toAList

/-- The deployment values, as `cfg_*` fields. -/
def configSnapshot : Dict := (a.config.map fun c => item ("cfg_" ++ c.1) (.number c.2)).toAList

/-- `_runtime_snapshot_locked`, up to the deployment values -/
def runtimeSnapshot : Dict :=
  [item "inference_prompt" (.text a.inferencePrompt),
    item "trigger_keywords" (.text ((pyStr ",").intercalate a.triggerKeywords)),
    item "label_groups" (.labels a.labelGroups), item "presets" (.presets a.presets),
    item "active_preset" (.text a.activePreset), item "event_triggered" (.bool a.eventTriggered),
    item "analysis_active" (.bool a.analysisActive), item "vlm_state" (.text (pyStr a.vlmState)),
    item "vlm_error" (.text (pyStr a.vlmError)), item "vlm_models" (.texts a.vlmModels),
    item "vlm_current_model" (.text (pyStr a.vlmCurrentModel))].toAList

/-- `snapshot()`; of equal keys the last one stands. -/
def snapshot (now : ℚ) : Dict :=
  a.configSnapshot ∪ (a.runtimeSnapshot ∪ (a.streamSnapshot now ∪ a.inferenceSnapshot))

end AppState

-- ============================================================================
-- The methods
-- ============================================================================

/-- A call of a method of `AppState` that changes it. -/
inductive Method
  | setVlmState (state error : String)
  | setVlmModels (models : List String) (current : String)
  | setVlmCurrentModel (current : String)
  | setSource (protocol transport : String)
  | setConfig (config : List (String × ℚ))
  | setPrompt (prompt : PyStr)
  | setTriggers (keywords : List PyStr)
  | setLabelGroups (labels : Labels)
  | setPresets (presets : List Preset)
  | setActivePreset (presetId : PyStr)
  | setAnalysisActive (active : Bool)
  | updateFrame (w h : ℕ) (now : ℚ)
  | updateInference (raw : PyStr) (elapsedMs : ℤ) (eventTriggered : Bool)
  | markPipelineStarting (reason : String) (restart : Bool) (startedAt : ℚ)
  | markPipelineIdle (reason : String)
  | markPipelineStalled (reason : String)
  deriving DecidableEq

/-- What the method does under the lock. -/
def Method.apply (a : AppState) : Method → AppState
  | .setVlmState state error =>
      let b : AppState := { a with vlmState := state, vlmError := error }
      { b with
        pipelineStateDetail := b.currentDetail
        streaming := by
          intro hstate
          have hdetail := a.streaming hstate
          show (if _ then "" else a.pipelineStateDetail) = ""
          rw [hdetail, ite_self] }
  | .setVlmModels models current => { a with vlmModels := models, vlmCurrentModel := current }
  | .setVlmCurrentModel current => { a with vlmCurrentModel := current }
  | .setSource protocol transport =>
      { a with sourceProtocol := protocol, sourceTransport := transport }
  | .setConfig config => { a with config := config }
  | .setPrompt prompt =>
      { a with toAppState := a.toAppState.setPrompt prompt, streaming := a.streaming }
  | .setTriggers keywords =>
      { a with toAppState := a.toAppState.setTriggers keywords, streaming := a.streaming }
  | .setLabelGroups labels =>
      { a with toAppState := a.toAppState.setLabelGroups labels, streaming := a.streaming }
  | .setPresets presets =>
      { a with toAppState := a.toAppState.setPresets presets, streaming := a.streaming }
  | .setActivePreset presetId =>
      { a with toAppState := a.toAppState.setActivePreset presetId, streaming := a.streaming }
  | .setAnalysisActive active =>
      { a with
        toAppState := a.toAppState.setAnalysisActive active
        streaming := by cases active <;> exact a.streaming }
  | .updateFrame w h now =>
      { a with
        toAppState := a.toAppState.updateFrame now
        frameW := if a.analysisActive then w else a.frameW
        frameH := if a.analysisActive then h else a.frameH
        streaming := by
          rw [Analyzer.AppState.updateFrame]
          split
          · exact fun _ => rfl
          · exact a.streaming }
  | .updateInference raw elapsedMs eventTriggered =>
      { a with
        toAppState := a.toAppState.updateInference raw elapsedMs eventTriggered
        streaming := a.streaming }
  | .markPipelineStarting reason restart startedAt =>
      { a with
        toAppState := a.toAppState.markPipelineStarting reason restart startedAt
        streaming := by cases restart <;> exact fun hstate => nomatch hstate }
  | .markPipelineIdle reason =>
      { a with
        toAppState := a.toAppState.markPipelineIdle reason
        streaming := fun hstate => nomatch hstate }
  | .markPipelineStalled reason =>
      { a with
        toAppState := a.toAppState.markPipelineStalled reason
        streaming := fun hstate => nomatch hstate }

/-- Whether the method tells the subscribers; a frame does when it changes the state. -/
def Method.pushes (a : AppState) : Method → Bool
  | .setSource .. | .setConfig .. | .setPrompt .. | .setTriggers .. | .setLabelGroups ..
  | .setPresets .. | .setActivePreset .. => false
  | .updateFrame .. => a.analysisActive && a.pipelineState != .streaming
  | _ => true

-- ============================================================================
-- The fields whose change is told
-- ============================================================================

/-- The fields that only methods which push change. -/
def pushedKeys : List String :=
  ["infer_raw", "infer_ms", "event_triggered", "analysis_active", "pipeline_state",
    "pipeline_state_detail", "pipeline_restart_count", "vlm_state", "vlm_error", "vlm_models",
    "vlm_current_model"]

/-- What a dict says of these fields. -/
def shown (d : Dict) : List (Option Value) := pushedKeys.map d.lookup

namespace AppState

variable (a : AppState)

def shown : List (Option Value) :=
  [some (.text a.inferRaw), some (.int a.inferMs), some (.bool a.eventTriggered),
    some (.bool a.analysisActive), some (.text (pyStr (pipelineStateName a.pipelineState))),
    some (.text (pyStr a.currentDetail)), some (.int a.pipelineRestartCount), some (.text (pyStr a.vlmState)),
    some (.text (pyStr a.vlmError)), some (.texts a.vlmModels), some (.text (pyStr a.vlmCurrentModel))]

end AppState

/-- Of equal keys the one on the left stands. -/
theorem lookup_union (s t : Dict) (key : String) :
    (s ∪ t).lookup key = (s.lookup key).or (t.lookup key) := by
  by_cases h : key ∈ s
  · obtain ⟨v, hv⟩ := Option.isSome_iff_exists.mp (AList.lookup_isSome.mpr h)
    rw [AList.lookup_union_left h, hv, Option.some_or]
  · rw [AList.lookup_union_right h, AList.lookup_eq_none.mpr h, Option.none_or]

theorem dlookup_item (key key' : String) (value : Value)
    (l : List (Sigma fun _ : String => Value)) :
    List.dlookup key (item key' value :: l) = if key = key' then some value else l.dlookup key := by
  by_cases h : key = key'
  · subst h
    rw [List.dlookup_cons_eq, if_pos rfl]
  · rw [List.dlookup_cons_ne _ _ h, if_neg h]

/-- The key of a deployment value. -/
def isConfigKey (key : String) : Bool := "cfg_".toList.isPrefixOf key.toList

namespace AppState

variable (a : AppState) (now : ℚ)

theorem lookup_config {key : String} (h : isConfigKey key = false) :
    a.configSnapshot.lookup key = none := by
  rw [configSnapshot, AList.lookup_to_alist, List.dlookup_eq_none]
  intro hmem
  obtain ⟨c, hc, hkey⟩ := List.mem_map.mp hmem
  obtain ⟨d, -, rfl⟩ := List.mem_map.mp hc
  rw [isConfigKey, ← hkey, String.toList_append] at h
  have hprefix : "cfg_".toList <+: "cfg_".toList ++ d.1.toList := List.prefix_append _ _
  rw [← List.isPrefixOf_iff_prefix, h] at hprefix
  cases hprefix

/-- The snapshot says what the state shows. -/
theorem snapshot_shown : Monitor.shown (a.snapshot now) = a.shown := by
  have hnone : ∀ key ∈ pushedKeys, isConfigKey key = false := by decide
  have hrest : ∀ key ∈ pushedKeys, (a.snapshot now).lookup key =
      (a.runtimeSnapshot ∪ (a.streamSnapshot now ∪ a.inferenceSnapshot)).lookup key := by
    intro key hkey
    rw [snapshot, lookup_union, a.lookup_config (hnone key hkey), Option.none_or]
  rw [Monitor.shown, List.map_congr_left hrest]
  simp [lookup_union, runtimeSnapshot, streamSnapshot, inferenceSnapshot, AList.lookup_to_alist,
    pushedKeys, dlookup_item, AppState.shown]

end AppState

/-- Frames of a stopped pipeline change nothing, and the next frames nothing that is shown. -/
theorem updateFrame_shown {a : AppState} {w h : ℕ} {now : ℚ}
    (hquiet : (Method.updateFrame w h now).pushes a = false) :
    ((Method.updateFrame w h now).apply a).shown = a.shown := by
  rw [Method.pushes, Bool.and_eq_false_iff] at hquiet
  by_cases hactive : a.analysisActive = true
  · have hstate : a.pipelineState = .streaming := by
      rcases hquiet with hstopped | hsame
      · rw [hactive] at hstopped
        cases hstopped
      · exact by_contra fun hne => absurd hsame (by rw [bne_iff_ne.mpr hne]; exact Bool.noConfusion)
    have hdetail := a.streaming hstate
    simp only [AppState.shown, AppState.currentDetail, Method.apply, Analyzer.AppState.updateFrame,
      hactive, if_true, hstate, hdetail]
  · simp only [AppState.shown, AppState.currentDetail, Method.apply, Analyzer.AppState.updateFrame,
      hactive, Bool.false_eq_true, if_false]

/-- What a method that tells nobody leaves as it was. -/
theorem unpushed_shown {a : AppState} {m : Method} (h : m.pushes a = false) :
    (m.apply a).shown = a.shown := by
  cases m with
  | updateFrame w h now => exact updateFrame_shown h
  | setSource | setConfig | setPrompt | setTriggers | setLabelGroups | setPresets
  | setActivePreset => rfl
  | _ => cases h

end Babycat.Monitor
