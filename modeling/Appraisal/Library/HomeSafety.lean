import Appraisal.Definition
/-!
# Home safety

The catalog that needs no file.
-/

namespace Appraisal.Library

/-- A layer that takes no answers. -/
def outright (v : Verdict) : LayerDefinition :=
  .last [] (Condition.direct v).tag none

def smokeAlarms : ItemDefinition where
  id := "smoke-alarms"
  title := "Is there a working smoke alarm on every floor?"
  description := some "Press the test button on each alarm before answering."
  yesHint := some "Every alarm sounded when tested."
  noHint := some "At least one floor has no alarm, or an alarm stayed silent."
  onYes := outright .pass
  onNo := .last [
      ⟨"Is there at least one working alarm in the home?", .pass⟩,
      ⟨"Is a replacement or new alarm being fitted within 30 days?", .pass⟩]
    "all-yes" none

def gasAppliances : ItemDefinition where
  id := "gas-appliances"
  title := "Do you have gas appliances (boiler, hob, fire)?"
  description := none
  yesHint := none
  noHint := none
  onYes := .followed [
      ⟨"Have all gas appliances been serviced in the last 12 months?", .pass⟩,
      ⟨"Is a carbon monoxide alarm fitted in each room with an appliance?", .pass⟩]
    "all-yes" (some "any-yes")
    (.last [
        ⟨"Is a service booked within the next month?", .pass⟩,
        ⟨"Are unserviced appliances kept switched off until then?", .pass⟩]
      "all-yes" none)
  onNo := outright .pass

def electrical : ItemDefinition where
  id := "electrical"
  title := "Is there any exposed wiring or damaged sockets?"
  description := none
  yesHint := some "Cracked faceplates, scorch marks, loose or bare cables."
  noHint := none
  onYes := .followed [
      ⟨"Is the damage in a kitchen, bathroom or other wet area?", .fail⟩,
      ⟨"Is it within reach of children?", .fail⟩,
      ⟨"Has it sparked or smelt of burning?", .fail⟩]
    "yes-to-one-or-less" (some "yes-to-two-or-more")
    (.last [
        ⟨"Is the affected circuit isolated at the consumer unit?", .pass⟩,
        ⟨"Is an electrician booked within 48 hours?", .pass⟩]
      "all-yes" none)
  onNo := outright .pass

def escapeRoutes : ItemDefinition where
  id := "escape-routes"
  title := "Are all escape routes (doors, hallways, stairs) clear?"
  description := none
  yesHint := none
  noHint := none
  onYes := outright .pass
  onNo := .last [
      ⟨"Is the obstruction temporary, such as a delivery being unpacked?", .pass⟩,
      ⟨"Is an exit door locked with no key kept nearby?", .fail⟩,
      ⟨"Is furniture blocking an escape window?", .fail⟩]
    "yes-to-only-pass-fail" none

def portableHeaters : ItemDefinition where
  id := "portable-heaters"
  title := "Do you use portable heaters?"
  description := none
  yesHint := none
  noHint := none
  onYes := .last [
      ⟨"Are heaters kept at least one metre from furniture and curtains?", .pass⟩,
      ⟨"Are they switched off whenever the room is empty?", .pass⟩,
      ⟨"Are they plugged into a wall socket rather than an extension lead?", .pass⟩]
    "max-yes" none
  onNo := outright .pass

def flammableStorage : ItemDefinition where
  id := "flammable-storage"
  title := "Are flammable liquids (fuel, solvents, aerosols) stored indoors?"
  description := none
  yesHint := none
  noHint := none
  onYes := .last [
      ⟨"Are any containers leaking or left open?", .fail⟩,
      ⟨"Are any stored next to a boiler, cooker or heater?", .fail⟩]
    "all-no" none
  onNo := outright .pass

def fireBlanket : ItemDefinition where
  id := "fire-blanket"
  title := "Is there a fire blanket or extinguisher in the kitchen?"
  description := none
  yesHint := none
  noHint := none
  onYes := outright .pass
  onNo := outright .fail

def homeSafety : CatalogDefinition where
  name := "home-safety"
  version := "1.2"
  description := some ("Household fire and electrical safety self-check. Each item passes or fails on its own; " ++
    "follow-up questions appear only where the first answer needs a closer look.\n")
  items := [smokeAlarms, gasAppliances, electrical, escapeRoutes, portableHeaters, flammableStorage, fireBlanket]

end Appraisal.Library
