import RecordRules.Record.Basic
import RecordRules.Settings
import RecordRules.Tree.Check
import RecordRules.Tree.Evaluate

/-!
# The cache of texts

The trees of texts that have been read are remembered in a **cache**, under
the trimmed text. A text that is found there is not read again, and no limit
is applied to its tree. A text that is not found is read and, if that
succeeds, remembered; where the cache is full, it is emptied first. A text
that cannot be read leaves the cache as it is, and so does every text while
the cache is disabled.
-/

namespace RecordRules

/-- **The trees that are remembered**, by trimmed text. -/
abbrev Cache := Table Tree

namespace Cache

/-- The cache in which the tree is remembered; a full one is emptied first. -/
def remember (capacity : Nat) (cache : Cache) (key : String) (t : Tree) : Cache :=
  (if capacity ≤ cache.size then Table.empty else cache).insert key t

/-- **The tree of a text** and the cache after it was asked for; an error
leaves the cache as it was. -/
def read (settings : Settings) (cache : Cache) (text : String) :
    Except Error (Tree × Cache) :=
  let key := Text.trim text
  if settings.cacheEnabled then
    match cache.get? key with
    | some t => .ok (t, cache)
    | none =>
      (Tree.ofText settings.maxDepth key).map fun t =>
        (t, cache.remember settings.cacheCapacity key t)
  else (Tree.ofText settings.maxDepth key).map fun t => (t, cache)

end Cache

end RecordRules
