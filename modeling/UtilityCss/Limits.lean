/-!
# Limits of recursion

Some of the work is done by functions that call themselves, and only so many calls may be open at
the same time. How many levels such a function can go down depends on how many calls are open when
it begins, and on how many it opens for each level. None of the limits here belongs to a format that
is read or to a configuration: they all come from the one bound on open calls, and a caller that is
deeper inside when the work begins leaves room for fewer levels. What is said here about the calls
that are open at the beginning is so for one such caller.
-/

namespace UtilityCss

/-- How many calls may be open at the same time. -/
def callLimit : Nat := 1000

/-- How many levels a function can go down that calls itself, if `begun` calls are open when it
starts and `each` more are opened for a level. -/
def levelsWithin (begun each : Nat) : Nat := (callLimit - begun) / each

/-- How many arrays and objects of a JSON text may be open at once. Each of them is read by a call
inside the call for what is around it; 12 calls are open when the reading begins. -/
def Json.nestingLimit : Nat := levelsWithin 12 1

/-- How many blocks of a stylesheet may stand inside one another. For each block there is a call for
the block and one for what is in it; 16 calls are open when the tree of blocks is made. -/
def Stylesheet.maxDepth : Nat := levelsWithin 16 2

/-- How many groups in braces may be expanded one after the other. What is left of a pattern behind
a choice is expanded by a call inside the call for the pattern; 10 calls are open at the first. -/
def maxBraceDepth : Nat := levelsWithin 10 1

/-- The most missing directories that are made at once, with the one that they lead to. The call for
a directory waits for the one that makes the directory above it; 15 calls are open at the first. -/
def Disk.maxMissingFolders : Nat := levelsWithin 15 1

/-- The most components that a file pattern may have, a slash at its end included. A component is
prepared by five calls, and the next one inside them; 15 calls are open at the first. -/
def Disk.maxSegments : Nat := levelsWithin 15 5

end UtilityCss
