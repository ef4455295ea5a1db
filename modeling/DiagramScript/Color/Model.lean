import DiagramScript.Number.Scalar

/-
  Colours by hue.

  Two ways to give a colour by its hue, one with saturation and lightness and one with
  saturation and value, turned into shares of red, green and blue. All steps are rounded
  floating-point arithmetic in a fixed order.
-/

namespace DiagramScript.Color

/-- Shares of red, green and blue, 1 being full. -/
abbrev Shares := Binary64 × Binary64 × Binary64

/-- A whole number as a floating-point one. -/
def small (n : Int) : Binary64 := .ofUnits false (n * Binary64.one)

def third : Binary64 := (small 1).div (small 3)

def sixth : Binary64 := (small 1).div (small 6)

def twoThirds : Binary64 := (small 2).div (small 3)

def below (a b : Binary64) : Bool := (Scalar.real a).lt (.real b)

/-- The share at a place of the circle of hues between a least and a greatest one. -/
def shareAt (low high hue : Binary64) : Binary64 :=
  let hue := hue.modOne
  if below hue sixth then low.add (((high.sub low).mul hue).mul (small 6))
  else if below hue (Binary64.ofDecimal false 5 (-1)) then high
  else if below hue twoThirds then
    low.add (((high.sub low).mul (twoThirds.sub hue)).mul (small 6))
  else low

/-- The colour of a hue, a lightness and a saturation. -/
def ofLightness (hue light saturation : Binary64) : Shares :=
  if saturation.isZero then (light, light, light)
  else
    let half := Binary64.ofDecimal false 5 (-1)
    let high :=
      if below half light then (light.add saturation).sub (light.mul saturation)
      else light.mul ((small 1).add saturation)
    let low := ((small 2).mul light).sub high
    (shareAt low high (hue.add third), shareAt low high hue, shareAt low high (hue.sub third))

/-- The colour of a hue, a saturation and a value. -/
def ofValue (hue saturation value : Binary64) : Shares :=
  if saturation.isZero then (value, value, value)
  else
    let sextant := hue.mul (small 6)
    let i := sextant.truncate?.getD 0
    let f := sextant.sub (small i)
    let one := small 1
    let p := value.mul (one.sub saturation)
    let q := value.mul (one.sub (saturation.mul f))
    let t := value.mul (one.sub (saturation.mul (one.sub f)))
    match (i % 6).toNat with
    | 0 => (value, t, p)
    | 1 => (q, value, p)
    | 2 => (p, value, t)
    | 3 => (p, q, value)
    | 4 => (t, p, value)
    | _ => (value, p, q)

end DiagramScript.Color
