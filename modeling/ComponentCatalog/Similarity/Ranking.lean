import ComponentCatalog.Similarity.Score

/-!
# Ranking of candidates

Candidates are names with a payload. Those above a threshold are ranked by falling similarity to
the name that was asked for; equally similar ones keep their order.
-/

namespace ComponentCatalog

variable {α : Type}

/-- A better candidate than the best one before, which is `best` with its score. -/
def better? (query : Text) (threshold : Double) (best : Double × Option α) (candidate : Text × α) :
    Double × Option α :=
  let s := similarity query candidate.1
  if best.1.lt s && threshold.lt s then (s, some candidate.2) else best

/-- The payload of the first candidate of the highest similarity above zero and the threshold. -/
def bestMatch? (query : Text) (candidates : List (Text × α)) (threshold : Double) : Option α :=
  (candidates.foldl (better? query threshold) (Double.zero, none)).2

/-- The candidates above the threshold with their similarities. -/
def nearMisses (query : Text) (candidates : List (Text × α)) (threshold : Double) :
    List (Double × α) :=
  candidates.filterMap fun (name, payload) =>
    let s := similarity query name
    if threshold.lt s then some (s, payload) else none

/-- Scored payloads by falling score; equal scores keep their order. -/
def byScore (scored : List (Double × α)) : List (Double × α) :=
  scored.mergeSort fun x y => decide (y.1.order ≤ x.1.order)

/-- The first `limit` elements, or all but the last ones if the limit is negative. -/
def upTo (limit : Int) (xs : List α) : List α :=
  match limit with
  | .ofNat n => xs.take n
  | .negSucc n => xs.take (xs.length - (n + 1))

/-- The payloads of the best candidates above the threshold, the best first. -/
def rank (query : Text) (candidates : List (Text × α)) (threshold : Double) (limit : Int) : List α :=
  upTo limit ((byScore (nearMisses query candidates threshold)).map (·.2))

end ComponentCatalog
