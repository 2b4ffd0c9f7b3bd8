import ControlUnit.Text.Cluster.Property

/-!
# Clusters

A text is read in clusters, the characters that a reader perceives: a letter with
its accents, a syllable written with several letters, a flag, an emoji joined from
others. The boundaries are those of extended grapheme clusters. The renderer for
terminals puts clusters into cells; nothing else asks for them.

Whether a character continues the cluster before it depends on that cluster alone, so
a text is cut in one pass.

## Main results

* `flatten_clusters` — nothing is lost: the clusters of a text, put together, are the
  text.
* `ne_nil_of_mem_clusters` — no cluster is empty.
* `clusters_cons_cons` — a character that does not continue the one before it begins
  a cluster.
-/

namespace ControlUnit.Text

/-! ## Kinds of characters -/

/-- What a character does to the boundaries next to it. -/
inductive ClusterRole where
  | carriageReturn
  | lineFeed
  | control
  /-- A mark that continues any cluster. -/
  | extend
  /-- A mark that also ties the consonant before it to the next one. -/
  | linker
  /-- The joiner, which also ties an emoji to the next one. -/
  | joiner
  | spacingMark
  | prepended
  /-- Half of a flag. -/
  | regionalIndicator
  | leadingJamo
  | vowelJamo
  | trailingJamo
  /-- A syllable of a leading and a vowel jamo. -/
  | openSyllable
  /-- A syllable that has a trailing jamo too. -/
  | closedSyllable
  | consonant
  | pictograph
  | other
  deriving DecidableEq, Repr

def zeroWidthJoiner : Char := '\u200d'

def clusterRole (c : Char) : ClusterRole :=
  if c = '\r' then .carriageReturn
  else if c = '\n' then .lineFeed
  else if c = zeroWidthJoiner then .joiner
  else if Cluster.control.contains c then .control
  else if Cluster.conjunctLinker.contains c then .linker
  else if Cluster.graphemeExtend.contains c || Cluster.skinTone.contains c then .extend
  else if Cluster.spacingMark.contains c then .spacingMark
  else if Cluster.prepended.contains c then .prepended
  else if Cluster.regionalIndicator.contains c then .regionalIndicator
  else if Cluster.leadingJamo.contains c then .leadingJamo
  else if Cluster.vowelJamo.contains c then .vowelJamo
  else if Cluster.trailingJamo.contains c then .trailingJamo
  else if Cluster.syllable.contains c then
    if (c.toNat - 0xAC00) % 28 = 0 then .openSyllable else .closedSyllable
  else if Cluster.conjunctConsonant.contains c then .consonant
  else if Cluster.pictograph.contains c then .pictograph
  else .other

namespace ClusterRole

def isAlone : ClusterRole → Bool
  | carriageReturn | lineFeed | control => true
  | _ => false

/-- Whether a mark continues any cluster and is passed over when the cluster is looked
back upon. -/
def isMark : ClusterRole → Bool
  | extend | linker | joiner => true
  | _ => false

/-- Whether a character goes on with a syllable. -/
def continuesSyllable : ClusterRole → ClusterRole → Bool
  | leadingJamo, leadingJamo | leadingJamo, vowelJamo => true
  | leadingJamo, openSyllable | leadingJamo, closedSyllable => true
  | openSyllable, vowelJamo | openSyllable, trailingJamo => true
  | vowelJamo, vowelJamo | vowelJamo, trailingJamo => true
  | closedSyllable, trailingJamo | trailingJamo, trailingJamo => true
  | _, _ => false

end ClusterRole

/-! ## What continues a cluster

A cluster that is being read is given by the roles of its characters, the last one
first. -/

/-- Whether a cluster waits for the second consonant of a conjunct. -/
def awaitsConsonant (cluster : List ClusterRole) : Bool :=
  (cluster.takeWhile ClusterRole.isMark).contains .linker
    && (cluster.dropWhile ClusterRole.isMark).head? == some .consonant

/-- Whether a cluster waits for an emoji to be joined. -/
def awaitsPictograph : List ClusterRole → Bool
  | .joiner :: earlier =>
    (earlier.dropWhile fun role => role == .extend || role == .linker).head? == some .pictograph
  | _ => false

/-- Whether a cluster waits for the second half of a flag. -/
def awaitsIndicator (cluster : List ClusterRole) : Bool :=
  (cluster.takeWhile fun role => role == .regionalIndicator).length % 2 == 1

/-- Whether a character continues a cluster. -/
def continuesCluster (cluster : List ClusterRole) (next : ClusterRole) : Bool :=
  match cluster with
  | [] => false
  | last :: _ =>
    if last.isAlone || next.isAlone then last == .carriageReturn && next == .lineFeed
    else
      next.isMark || next == .spacingMark || last == .prepended
        || last.continuesSyllable next
        || next == .consonant && awaitsConsonant cluster
        || next == .pictograph && awaitsPictograph cluster
        || next == .regionalIndicator && awaitsIndicator cluster

/-! ## Cutting a text -/

/-- The clusters of a text of which the first has been read in part. The characters
read stand with the last one first. -/
def clustersFrom (read : List Char) : List Char → List (List Char)
  | [] => [read.reverse]
  | c :: rest =>
    if continuesCluster (read.map clusterRole) (clusterRole c) then clustersFrom (c :: read) rest
    else read.reverse :: clustersFrom [c] rest

def clusters : List Char → List (List Char)
  | [] => []
  | c :: rest => clustersFrom [c] rest

private theorem flatten_clustersFrom (read text : List Char) :
    (clustersFrom read text).flatten = read.reverse ++ text := by
  induction text generalizing read with
  | nil => simp [clustersFrom]
  | cons c rest ih =>
      by_cases h : continuesCluster (read.map clusterRole) (clusterRole c) = true
      · simp [clustersFrom, h, ih]
      · simp [clustersFrom, h, ih]

/-- The clusters of a text, put together, are the text. -/
theorem flatten_clusters (text : List Char) : (clusters text).flatten = text := by
  cases text with
  | nil => rfl
  | cons c rest => simp [clusters, flatten_clustersFrom]

private theorem ne_nil_of_mem_clustersFrom {read text cluster : List Char} (hRead : read ≠ [])
    (h : cluster ∈ clustersFrom read text) : cluster ≠ [] := by
  induction text generalizing read with
  | nil =>
      simp only [clustersFrom, List.mem_singleton] at h
      simpa [h] using hRead
  | cons c rest ih =>
      by_cases hNext : continuesCluster (read.map clusterRole) (clusterRole c) = true
      · rw [clustersFrom, if_pos hNext] at h
        exact ih (by simp) h
      · rw [clustersFrom, if_neg hNext, List.mem_cons] at h
        rcases h with rfl | h
        · simpa using hRead
        · exact ih (by simp) h

/-- No cluster is empty. -/
theorem ne_nil_of_mem_clusters {text cluster : List Char} (h : cluster ∈ clusters text) :
    cluster ≠ [] := by
  cases text with
  | nil => simp [clusters] at h
  | cons c rest => exact ne_nil_of_mem_clustersFrom (by simp) h

/-- A character that does not continue the one before it begins a cluster. -/
theorem clusters_cons_cons {c d : Char} {rest : List Char}
    (h : continuesCluster [clusterRole c] (clusterRole d) = false) :
    clusters (c :: d :: rest) = [c] :: clusters (d :: rest) := by
  simp [clusters, clustersFrom, h]

end ControlUnit.Text
