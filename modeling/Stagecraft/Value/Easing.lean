import Stagecraft.Value.Basic

namespace Stagecraft.Easing

def clamp (t : Float) : Float :=
  if t < 0.0 then 0.0 else if t > 1.0 then 1.0 else t

def halfPi : Float := 1.57079632679489661923132169163975144

def square (t : Float) : Float := t * t

def cube (t : Float) : Float := t * t * t

def fourth (t : Float) : Float := square (square t)

def progress (e : Easing) (time : Float) : Float :=
  let t := clamp time
  match e with
  | linear => t
  | sineIn => 1.0 - (t * halfPi).cos
  | quadraticIn => square t
  | cubicIn => cube t
  | quarticIn => fourth t
  | sineOut => (t * halfPi).sin
  | quadraticOut => 1.0 - square (1.0 - t)
  | cubicOut => 1.0 - cube (1.0 - t)
  | quarticOut => 1.0 - fourth (1.0 - t)

end Stagecraft.Easing
