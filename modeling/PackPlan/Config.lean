import PackPlan.SizeSet
import PackPlan.Solver

/-!
# PackPlan.Config

The settings of a calculator. Each has a default, so settings that name nothing are complete. A draft
has some of them given, as a document does; what is not given takes its default.
-/

namespace PackPlan

structure CacheConfig where
  maxCapacity : Nat := 10000
  ttlSeconds : Nat := 300
deriving DecidableEq, Repr, Inhabited

/-- The time to live in milliseconds. -/
def CacheConfig.timeToLive (c : CacheConfig) : Nat := c.ttlSeconds * 1000

structure Config where
  defaultSizes : SizeSet := .standard
  cache : CacheConfig := {}
  limits : Limits := {}
deriving DecidableEq, Inhabited

/-! ## Drafts -/

/-- The limits that a document gives. -/
structure Limits.Draft where
  maxCeiling : Option Nat := none
deriving DecidableEq, Repr

structure CacheConfig.Draft where
  maxCapacity : Option Nat := none
  ttlSeconds : Option Nat := none
deriving DecidableEq, Repr

structure Config.Draft where
  defaultSizes : Option SizeSet := none
  cache : Option CacheConfig := none
  limits : Option Limits := none
deriving DecidableEq

namespace Limits

def title : String := "struct SolverLimits"

def Draft.complete (d : Draft) : Limits := ⟨d.maxCeiling.getD ({} : Limits).maxCeiling⟩

end Limits

namespace CacheConfig

def title : String := "struct CacheConfig"

def Draft.complete (d : Draft) : CacheConfig :=
  ⟨d.maxCapacity.getD ({} : CacheConfig).maxCapacity,
    d.ttlSeconds.getD ({} : CacheConfig).ttlSeconds⟩

end CacheConfig

namespace Config

def title : String := "struct CalculatorConfig"

def Draft.complete (d : Draft) : Config :=
  ⟨d.defaultSizes.getD .standard, d.cache.getD {}, d.limits.getD {}⟩

end Config
end PackPlan
