import Gibson.Brain.Systems

/-! What the resolution of one mission's conditions reads of the other missions: results are kept by
bare node name, over all the work of the tenant. -/

namespace Gibson.Brain

open List Rows

/-- What the System emits for one work item. -/
def conditionEvent? (E : ConditionEnv) (c : Control) (wi : WorkItem) : Option Event :=
  if conditionReady c.workSnapshot wi then some (conditionEvent E c wi) else none

lemma conditionSystem_eq_filterMap (E : ConditionEnv) (w : World) :
    conditionSystem E w = w.control.workSnapshot.filterMap (conditionEvent? E w.control) := by
  rw [conditionSystem, ← filterMap_eq_map, filterMap_filter]
  rfl

/-- The two Worlds hold the same mission record and the same work items of one mission. -/
structure AgreeOn (missionID : String) (c c' : Control) : Prop where
  mission : c.missionSnapshot.filter (·.id == missionID) =
    c'.missionSnapshot.filter (·.id == missionID)
  work : c.workSnapshot.filter (·.missionID == missionID) =
    c'.workSnapshot.filter (·.missionID == missionID)

lemma AgreeOn.missionBagFor
    (h : AgreeOn missionID c c') : missionBagFor c missionID = missionBagFor c' missionID := by
  unfold Brain.missionBagFor
  rw [← List.head?_filter, h.mission, List.head?_filter]

section
variable {missionID : String} {c c' : Control}
variable {wi : WorkItem}

def ConditionEnv.asks (name : String) (result : Option String) : ConditionEnv where
  unmarshal _ := some { expression := "asks", trueBranch := [], falseBranch := [] }
  evalCondition _ nodes _ := nodes.lookup name == result

end

end Gibson.Brain
