import RegisterMachine.Effect
import RegisterMachine.Proofs.Results

/-! Rules for the effects of actions.
Each rule lists the checks that an effect has passed and what the effect is then; the rules give
exactly the effects that are computed.
-/

namespace RegisterMachine

namespace Registers

theorem fetch_eq_ok_iff {registers : Registers} {index value : Int}
    : registers.fetch index = .ok value
      ↔ registers.Contains index ∧ registers.value index = value := by
  rw [fetch, mapError_eq_ok_iff, get]
  by_cases contained : registers.Contains index
  · rw [if_pos contained, Except.ok.injEq]
    exact ⟨fun h => ⟨contained, h⟩, And.right⟩
  · rw [if_neg contained]
    exact ⟨fun h => (by cases h), fun h => (contained h.1).elim⟩

theorem fetch_eq_error_iff {registers : Registers} {index : Int} {fault : Fault}
    : registers.fetch index = .error fault
      ↔ ¬ registers.Contains index ∧ fault = .index ⟨index, registers.size⟩ := by
  rw [fetch, mapError_eq_error_iff, get]
  split
  · next contained => simp [contained]
  · next missing => simp [missing, eq_comm]

theorem reach_eq_ok_iff {registers : Registers} {index : Int} {done : Unit}
    : registers.reach index = .ok done ↔ registers.Contains index := by
  rw [reach, mapError_eq_ok_iff, check]
  by_cases contained : registers.Contains index
  · rw [if_pos contained]
    exact ⟨fun _ => contained, fun _ => rfl⟩
  · rw [if_neg contained]
    exact ⟨fun h => (by cases h), fun h => (contained h).elim⟩

theorem reach_eq_error_iff {registers : Registers} {index : Int} {fault : Fault}
    : registers.reach index = .error fault
      ↔ ¬ registers.Contains index ∧ fault = .index ⟨index, registers.size⟩ := by
  rw [reach, mapError_eq_error_iff, check]
  split
  · next contained => simp [contained]
  · next missing => simp [missing, eq_comm]

end Registers

theorem checkBase_eq_ok_iff {base : Int} {done : Unit}
    : checkBase base = .ok done ↔ IsBase base := by
  rw [checkBase]
  by_cases valid : IsBase base
  · rw [if_pos valid]
    exact ⟨fun _ => valid, fun _ => rfl⟩
  · rw [if_neg valid]
    exact ⟨fun h => (by cases h), fun h => (valid h).elim⟩

theorem checkBase_eq_error_iff {base : Int} {fault : Fault}
    : checkBase base = .error fault ↔ ¬ IsBase base ∧ fault = .base ⟨base⟩ := by
  rw [checkBase]
  split
  · next valid => simp [valid]
  · next invalid => simp [invalid, eq_comm]

/-- The effects of actions, each with the checks that it has passed. -/
inductive Yields (registers : Registers) (operands : Operands) : Action → Effect → Prop
  | printAll (base : IsBase operands.first)
    : Yields registers operands .printAll (.report (registers.listing operands.first.toNat))
  | printOne (source : registers.Contains operands.first) (base : IsBase operands.second)
    : Yields registers operands .printOne
        (.report
          [ .register operands.first
              (numeral operands.second.toNat (registers.value operands.first)) ])
  | ask (destination : registers.Contains operands.first) (base : IsBase operands.second)
    : Yields registers operands .ask (.ask ⟨operands.first, operands.second⟩)
  | unary {function} (source : registers.Contains operands.first)
    (destination : registers.Contains operands.third)
    : Yields registers operands (.unary function)
        (.write [(operands.third, function (registers.value operands.first))])
  | binary {function : BinaryFunction} {result} (first : registers.Contains operands.first)
    (second : registers.Contains operands.second)
    (defined
      : function (registers.value operands.first) (registers.value operands.second) = .ok result)
    (destination : registers.Contains operands.third)
    : Yields registers operands (.binary function) (.write [(operands.third, result)])
  | zeroDivisor {function} (first : registers.Contains operands.first)
    (second : registers.Contains operands.second) (zero : registers.value operands.second = 0)
    : Yields registers operands (.divide function) (.report [.divisionByZero])
  | divide {function : BinaryFunction} {result} (first : registers.Contains operands.first)
    (second : registers.Contains operands.second) (nonzero : registers.value operands.second ≠ 0)
    (defined
      : function (registers.value operands.first) (registers.value operands.second) = .ok result)
    (destination : registers.Contains operands.third)
    : Yields registers operands (.divide function) (.write [(operands.third, result)])
  | swap (first : registers.Contains operands.first)
    (second : registers.Contains operands.second)
    : Yields registers operands .swap
        (.write
          [ (operands.first, registers.value operands.second)
          , (operands.second, registers.value operands.first) ])
  | copy (source : registers.Contains operands.second)
    (destination : registers.Contains operands.first)
    : Yields registers operands .copy
        (.write [(operands.first, registers.value operands.second)])
  | byteIndex (first : registers.Contains operands.first)
    (second : registers.Contains operands.second) (third : registers.Contains operands.third)
    (outside : registers.value operands.second < 0 ∨ 3 < registers.value operands.second)
    : Yields registers operands .setByte (.report [.byteIndexOutOfRange])
  | byteValue (first : registers.Contains operands.first)
    (second : registers.Contains operands.second) (third : registers.Contains operands.third)
    (index : ¬ (registers.value operands.second < 0 ∨ 3 < registers.value operands.second))
    (outside : registers.value operands.third < 0 ∨ 255 < registers.value operands.third)
    : Yields registers operands .setByte (.report [.byteValueOutOfRange])
  | setByte (first : registers.Contains operands.first)
    (second : registers.Contains operands.second) (third : registers.Contains operands.third)
    (index : ¬ (registers.value operands.second < 0 ∨ 3 < registers.value operands.second))
    (byte : ¬ (registers.value operands.third < 0 ∨ 255 < registers.value operands.third))
    : Yields registers operands .setByte
        (.write
          [ (operands.first,
              Arithmetic.replaceByte (registers.value operands.first)
                (registers.value operands.second) (registers.value operands.third)) ])

/-- The rules give exactly the computed effects, by the shapes of actions. -/
theorem Action.effect_eq_ok_iff {action : Action} {registers : Registers} {operands : Operands}
    {effect : Effect}
    : action.effect registers operands = .ok effect ↔ Yields registers operands action effect := by
  constructor
  · intro h
    cases action with
    | printAll =>
        simp only [Action.effect, bind_eq_ok_iff, checkBase_eq_ok_iff, pure_eq_ok_iff] at h
        obtain ⟨_, base, rfl⟩ := h
        exact .printAll base
    | printOne =>
        simp only [Action.effect, bind_eq_ok_iff, checkBase_eq_ok_iff, pure_eq_ok_iff,
          Registers.fetch_eq_ok_iff] at h
        obtain ⟨_, ⟨source, rfl⟩, _, base, rfl⟩ := h
        exact .printOne source base
    | ask =>
        simp only [Action.effect, bind_eq_ok_iff, checkBase_eq_ok_iff, pure_eq_ok_iff,
          Registers.reach_eq_ok_iff] at h
        obtain ⟨_, destination, _, base, rfl⟩ := h
        exact .ask destination base
    | unary function =>
        simp only [Action.effect, bind_eq_ok_iff, pure_eq_ok_iff, Registers.fetch_eq_ok_iff,
          Registers.reach_eq_ok_iff] at h
        obtain ⟨_, ⟨source, rfl⟩, _, destination, rfl⟩ := h
        exact .unary source destination
    | binary function =>
        simp only [Action.effect, bind_eq_ok_iff, pure_eq_ok_iff, mapError_eq_ok_iff,
          Registers.fetch_eq_ok_iff, Registers.reach_eq_ok_iff] at h
        obtain ⟨_, ⟨first, rfl⟩, _, ⟨second, rfl⟩, _, defined, _, destination, rfl⟩ := h
        exact .binary first second defined destination
    | divide function =>
        simp only [Action.effect, bind_eq_ok_iff, Registers.fetch_eq_ok_iff] at h
        obtain ⟨_, ⟨first, rfl⟩, _, ⟨second, rfl⟩, h⟩ := h
        split at h
        · next zero =>
            obtain rfl := pure_eq_ok_iff.mp h
            exact .zeroDivisor first second zero
        · next nonzero =>
            simp only [bind_eq_ok_iff, pure_eq_ok_iff, mapError_eq_ok_iff,
              Registers.reach_eq_ok_iff] at h
            obtain ⟨_, defined, _, destination, rfl⟩ := h
            exact .divide first second nonzero defined destination
    | swap =>
        simp only [Action.effect, bind_eq_ok_iff, pure_eq_ok_iff, Registers.fetch_eq_ok_iff] at h
        obtain ⟨_, ⟨first, rfl⟩, _, ⟨second, rfl⟩, rfl⟩ := h
        exact .swap first second
    | copy =>
        simp only [Action.effect, bind_eq_ok_iff, pure_eq_ok_iff, Registers.fetch_eq_ok_iff,
          Registers.reach_eq_ok_iff] at h
        obtain ⟨_, ⟨source, rfl⟩, _, destination, rfl⟩ := h
        exact .copy source destination
    | setByte =>
        simp only [Action.effect, bind_eq_ok_iff, Registers.fetch_eq_ok_iff] at h
        obtain ⟨_, ⟨first, rfl⟩, _, ⟨second, rfl⟩, _, ⟨third, rfl⟩, h⟩ := h
        split at h
        · next outside =>
            obtain rfl := pure_eq_ok_iff.mp h
            exact .byteIndex first second third outside
        · next index =>
            split at h
            · next outside =>
                obtain rfl := pure_eq_ok_iff.mp h
                exact .byteValue first second third index outside
            · next byte =>
                obtain rfl := pure_eq_ok_iff.mp h
                exact .setByte first second third index byte
  · intro h
    cases h <;> simp only [Action.effect, bind_eq_ok_iff, checkBase_eq_ok_iff, pure_eq_ok_iff,
      mapError_eq_ok_iff, Registers.fetch_eq_ok_iff, Registers.reach_eq_ok_iff]
    case printAll base => exact ⟨(), base, trivial⟩
    case printOne source base => exact ⟨_, ⟨source, rfl⟩, (), base, rfl⟩
    case ask destination base => exact ⟨(), destination, (), base, trivial⟩
    case unary source destination => exact ⟨_, ⟨source, rfl⟩, (), destination, rfl⟩
    case binary first second defined destination =>
      exact ⟨_, ⟨first, rfl⟩, _, ⟨second, rfl⟩, _, defined, (), destination, rfl⟩
    case zeroDivisor first second zero =>
      exact ⟨_, ⟨first, rfl⟩, _, ⟨second, rfl⟩, by rw [if_pos zero]; rfl⟩
    case divide first second nonzero defined destination =>
      refine ⟨_, ⟨first, rfl⟩, _, ⟨second, rfl⟩, ?_⟩
      rw [if_neg nonzero]
      simp only [bind_eq_ok_iff, mapError_eq_ok_iff, Registers.reach_eq_ok_iff, pure_eq_ok_iff]
      exact ⟨_, defined, (), destination, rfl⟩
    case swap first second => exact ⟨_, ⟨first, rfl⟩, _, ⟨second, rfl⟩, rfl⟩
    case copy source destination => exact ⟨_, ⟨source, rfl⟩, (), destination, rfl⟩
    case byteIndex first second third outside =>
      exact ⟨_, ⟨first, rfl⟩, _, ⟨second, rfl⟩, _, ⟨third, rfl⟩, by rw [if_pos outside]; rfl⟩
    case byteValue first second third index outside =>
      refine ⟨_, ⟨first, rfl⟩, _, ⟨second, rfl⟩, _, ⟨third, rfl⟩, ?_⟩
      rw [if_neg index, if_pos outside]
      rfl
    case setByte first second third index byte =>
      refine ⟨_, ⟨first, rfl⟩, _, ⟨second, rfl⟩, _, ⟨third, rfl⟩, ?_⟩
      rw [if_neg index, if_neg byte]
      rfl

end RegisterMachine
