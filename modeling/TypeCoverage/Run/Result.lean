import TypeCoverage.Run.Visit

/-!
# The result of a run

The coverage of all visits together, their findings in the order of the list, the coverage by
file if it is wanted, and how many records were reused.
-/

set_option autoImplicit false

namespace TypeCoverage

/-- What a run reports. -/
structure RunResult extends Coverage where
  findings : List FileFinding
  fileCounts? : Option (OrderedMap Coverage)
  files : Nat
  hits : Nat
  misses : Nat

/-- The result of visits. Of two visits of one file the later gives its coverage. -/
def RunResult.ofVisits (settings : Settings) (visits : List Visit) : RunResult where
  toCoverage := Coverage.sum (visits.map (Visit.coverage settings))
  findings := visits.flatMap (Visit.findings settings)
  fileCounts? :=
    if settings.fileCounts then
      some (OrderedMap.ofList (visits.map fun v => (v.source.path, v.coverage settings)))
    else none
  files := visits.length
  hits := visits.countP Visit.isHit
  misses := visits.countP fun v => !v.isHit

end TypeCoverage
