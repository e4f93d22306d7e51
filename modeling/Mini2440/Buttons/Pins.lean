/-!
# The pins of the buttons

What a driver reads from a pin of GPGDAT.  The drivers test the result against 0, and so see
the level.
-/

namespace Mini2440.Buttons

/-- `s3c2410_gpio_getpin`: the bit of the pin in its place, 0 for a low level. -/
def gpioGetpin (pin : UInt32) (high : Bool) : UInt32 :=
  if high then (1 : UInt32) <<< pin else 0

theorem one_shiftLeft_ne_zero (pin : UInt32) : (1 : UInt32) <<< pin ≠ 0 := by
  intro zero
  have inRange : pin.toNat % 32 < 32 := Nat.mod_lt _ (by decide)
  have power : 2 ^ (pin.toNat % 32) < 2 ^ 32 := Nat.pow_lt_pow_right (by decide) inRange
  have value : 2 ^ (pin.toNat % 32) % 2 ^ 32 = 0 := by
    simpa [Nat.shiftLeft_eq] using congrArg UInt32.toNat zero
  rw [Nat.mod_eq_of_lt power] at value
  exact absurd value (Nat.ne_of_gt (Nat.two_pow_pos _))

theorem gpioGetpin_ne_zero (pin : UInt32) (high : Bool) :
    gpioGetpin pin high ≠ 0 ↔ high = true := by
  cases high with
  | false => simp [gpioGetpin]
  | true => simpa [gpioGetpin] using one_shiftLeft_ne_zero pin

end Mini2440.Buttons
