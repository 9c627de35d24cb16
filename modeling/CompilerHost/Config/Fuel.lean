/-! # Fuel policy

Fuel bounds how many instructions a guest may execute before it is stopped. A policy says how much
a compile gets, and between which bounds any level has to stay.
-/

namespace CompilerHost

/-- Levels of fuel as they were configured, if they were. -/
structure FuelPolicy where
  default : Option UInt64
  minimum : Option UInt64
  maximum : Option UInt64
deriving DecidableEq, Repr

namespace FuelPolicy

/-- A policy of which nothing is configured. -/
def unset : FuelPolicy := ⟨none, none, none⟩

/-- The fuel of a compile, if nothing else is said. -/
def standardLevel : UInt64 := 2000000000

/-- The lower bound, if nothing else is said. -/
def standardMinimum : UInt64 := 1000000

/-- The upper bound, if nothing else is said. -/
def standardMaximum : UInt64 := 20000000000

def defaultLevel (p : FuelPolicy) : UInt64 := p.default.getD standardLevel

def lowerBound (p : FuelPolicy) : UInt64 := p.minimum.getD standardMinimum

def upperBound (p : FuelPolicy) : UInt64 := p.maximum.getD standardMaximum

/-- The level nearest to the requested one within the bounds. Should they cross, the upper one
wins. -/
def clamp (p : FuelPolicy) (requested : UInt64) : UInt64 :=
  min (max requested p.lowerBound) p.upperBound

/-- The fuel of a compile. -/
def effective (p : FuelPolicy) : UInt64 := p.clamp p.defaultLevel

end FuelPolicy

end CompilerHost
