import FpsMaxxing.Contracts.Trial

/-! The measurement model that stands in for telemetry. -/

namespace FpsMaxxing

open Numeric

def modeledCapabilityId : String := "mock.value"

def modeledParameters : List String := ["value"]

def coldFps : F64 := 60
def baseFps : F64 := 60
def fpsGainPerUnit : F64 := 1
def baseTemperatureC : F64 := 50
def temperatureCPerUnit : F64 := .finite (1 / 2)
def basePowerW : F64 := 100
def powerWPerUnit : F64 := 1
def errorOnset : UInt64 := 90

def knobToSetting (value : UInt64) : F64 :=
  .finite (if value.toNat < 2 ^ 32 then value.toNat else 2 ^ 32 - 1)

def sampleAt (setting : F64) (value : UInt64) (warming : Bool) : MetricSample where
  fps := if warming then coldFps else baseFps + fpsGainPerUnit * setting
  temperatureC := baseTemperatureC + temperatureCPerUnit * setting
  powerW := basePowerW + powerWPerUnit * setting
  errors := saturatingSub value errorOnset

def measure (value : UInt64) (warmup counted : UInt32) : List MetricSample :=
  let setting := knobToSetting value
  ((List.range (warmup.toNat + counted.toNat)).map fun index =>
    (index, sampleAt setting value (decide (index < warmup.toNat)))).filterMap
    fun (index, sample) => if warmup.toNat ≤ index then some sample else none

lemma measure_eq (value : UInt64) (warmup counted : UInt32) :
    measure value warmup counted =
      List.replicate counted.toNat (sampleAt (knobToSetting value) value false) := by
  rw [measure, List.filterMap_map, List.range_add, List.filterMap_append, List.filterMap_map]
  have hw : (List.range warmup.toNat).filterMap
      ((fun (index, sample) => if warmup.toNat ≤ index then some sample else none) ∘ fun index =>
        (index, sampleAt (knobToSetting value) value (decide (index < warmup.toNat)))) = [] := by
    simp
  rw [hw, List.nil_append]
  simp only [Function.comp_def, Nat.le_add_right, if_true, Nat.not_lt.mpr, decide_false]
  simp

lemma sampleAt_finite (value : UInt64) (warming : Bool) :
    (sampleAt (knobToSetting value) value warming).Finite where
  fps := by cases warming <;> rfl
  temperatureC := rfl
  powerW := rfl

lemma measure_finite (value : UInt64) (warmup counted : UInt32) :
    ∀ sample ∈ measure value warmup counted, sample.Finite := by
  intro sample hs
  rw [measure_eq] at hs
  rw [List.eq_of_mem_replicate hs]
  exact sampleAt_finite _ _

end FpsMaxxing
