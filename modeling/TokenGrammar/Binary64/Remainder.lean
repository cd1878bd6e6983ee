import TokenGrammar.Binary64.Parts

/-! The remainder of a division that truncates its quotient. -/

namespace TokenGrammar.Binary64

/-- The dividend minus the largest multiple of the divisor that is not beyond it, without any
rounding. The remainder has the sign of the dividend; there is none of infinite numbers or by
zero.
-/
def remainder (dividend divisor : Float) : Float :=
  match Parts.of dividend, Parts.of divisor with
  | .finite negative significand exponent, .finite _ significand' exponent' =>
      if significand' = 0 then 0.0 / 0.0
      else
        let least := min exponent exponent'
        let units := significand * twoTo (exponent - least).toNat
        let units' := significand' * twoTo (exponent' - least).toNat
        let magnitude := (Float.ofNat (units % units')).scaleB least
        if negative then -magnitude else magnitude
  | .finite .., .infinite _ => dividend
  | _, _ => 0.0 / 0.0

end TokenGrammar.Binary64
