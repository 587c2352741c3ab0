/-!
The characters that are letters by use though not by category, as a table of runs labelled `Y` and
`N`.
-/

namespace StoredObjects

namespace Category

def alphabeticTable : List String :=
  ["N837YN618Y14NYNY2NY2NYN72Y11N48Y13NY7N16YN101Y7N4Y4N2Y2N4YN35YN30Y16N102Y11N101Y2N3Y9NY3NY4",
   "N167Y12N3Y7N6Y20N54Y2N2Y15NY2N5Y3N10Y2N29Y3N58Y7N2Y2N2Y2N10YN10Y2N29Y3N58Y5N4Y2N2Y2N4YN30Y2",
   "N3YN11Y3N58Y8NY3NY2N21Y2N22Y3N4Y3N58Y7N2Y2N2Y2N9Y2N10Y2N30YN59Y5N3Y3NY3N10YN40Y5N57Y7NY3NY3",
   "N8Y2N11Y2N29Y3N58Y7NY3NY3N8Y2N11Y2N15YN12Y4N58Y7NY3NY3N10YN10Y2N29Y3N75Y6NYNY8N18Y2N61YN2Y7",
   "N18YN99YN2Y6NY2N16YN163Y19N9Y11NY36N110Y12NYN2Y4N23Y4N4Y3NY3N2Y7N3Y4N13Y12NYN10Y4N1652Y2N30",
   "Y2N30Y2N30Y2N66Y19N188Y2N34YN118Y12N4Y9N222Y5N57Y10N2Y20N74Y2N11Y3N49Y5N48Y15N60Y3N30Y9N2Y2",
   "N57Y11N50Y19N432Y14N1729Y52N2294Y32N30836Y8N34Y2N354YN8YN23Y5N88Y2N50Y16NYN57YN38Y5N28Y12N45",
   "Y4N48Y12N37YN67Y14N12YN8Y2N45Y3N50YNY3N2Y2N5YN44Y5N5YN237Y8N20275YN2135Y5N1670Y3NY2N5Y4N788",
   "Y4N387Y2N339Y3N53Y14N45Y2N11Y3N45Y9N9YN61Y3N36Y12N18Y2N57Y3N48Y13N14Y2N92Y9N2YN6YN2YN157Y10",
   "N23Y4N58Y7N2Y2N2Y2N10YN10Y2N209Y13NY3N106Y18N237Y7N2Y7N29Y2N82Y15NYN106Y11N103Y14N257Y13N247",
   "Y6NY2N2Y2N3YNYN142Y7N2Y6N4YN28Y10N42Y5NY4N18Y11N46Y14N407Y8NY7N83Y22NY14N122Y6N3YNY2NY3NYN3Y",
   "N66Y5NY2NY4N348Y4N9Y2NYN48Y7N3Y3N20494YNY55N7Y4N93Y2N19628YN9057Y7NY17N2Y7NY2NY5N100YN2231Y",
   "N2024Y26N6Y26N6Y26N986742"]

end Category

end StoredObjects
