/-!
# EventQuery.Complaint

What can be wrong with a query. Each cause carries what its message names; `message` is the one
place where the wording is kept.
-/

namespace EventQuery

inductive Complaint where
  /-- A flat name outside the allow-list. -/
  | name (what shown : String)
  /-- A property name that is no text, or empty. -/
  | noProperty (what shown : String)
  /-- A property name with a part outside the allow-list. -/
  | property (what shown : String)
  | boundMissing (field : String)
  | boundUnreadable (field text : String)
  | windowReversed
  | timeframe (expression : String)
  | timeframeAmount (expression : String)
  | timeframeRange (expression : String)
  | timeframeObject (text : String)
  | filterShape
  | filterOperator (shown operators : String)
  /-- A filter value that has no form of its column's kind. -/
  | filterValue (column wanted shown : String)
  | rank
  /-- An archetype without a reduction of its own. -/
  | noReduction (archetype : String)
  /-- Values that a reduction cannot compare or add. -/
  | reduction (archetype target reason : String)
  | noTimestamp (column : String)
  | timestamp (column shown : String)
  | noColumn (column : String)
  | latest
  | interval (choices : String)
  | outliers (choices : String)
  | cachedText (key : String)
  | cachedShape (key : String)
  | cachedStatistics (key : String)
  | rollupEntry (key : String)
  | viewType
  | dayWithoutDate
  | referenceDate (text : String)
  /-- A failure of the store or the cache, in the words that the caller may see. -/
  | backend (text : String)
  deriving DecidableEq

namespace Complaint

def message : Complaint → String
  | name what shown =>
    "Invalid " ++ what ++ " \"" ++ shown ++ "\": names must start with a letter and contain "
      ++ "only lowercase letters and numbers"
  | noProperty what shown => "Invalid " ++ what ++ " \"" ++ shown ++ "\""
  | property what shown =>
    "Invalid " ++ what ++ " \"" ++ shown ++ "\": property names must start with a letter and "
      ++ "contain only lowercase letters and numbers"
  | boundMissing field => "Timeframe `" ++ field ++ "` must be an ISO-8601 string"
  | boundUnreadable field text =>
    "Timeframe `" ++ field ++ "` is not a valid ISO-8601 instant: " ++ text
  | windowReversed => "Timeframe `start` must be earlier than `end`"
  | timeframe expression =>
    "Invalid timeframe \"" ++ expression ++ "\": expected \x7b\"start\", \"end\"\x7d or "
      ++ "[this|previous]_<n>_<seconds|minutes|hours|days|weeks|months|years>"
  | timeframeAmount expression =>
    "Invalid timeframe \"" ++ expression ++ "\": the amount must be positive"
  | timeframeRange expression => "Timeframe \"" ++ expression ++ "\" is out of range"
  | timeframeObject text => "Invalid timeframe object: " ++ text
  | filterShape =>
    "Each filter must be an object with property_name, operator and property_value"
  | filterOperator shown operators =>
    "Invalid filter operator \"" ++ shown ++ "\": must be one of " ++ operators
  | filterValue column wanted shown =>
    "Filter value for \"" ++ column ++ "\" must be " ++ wanted ++ ": " ++ shown
  | rank => "`percentile` must be a number between 0 and 100"
  | noReduction archetype => "`" ++ archetype ++ "` cannot be aggregated by interval or group"
  | reduction archetype target reason =>
    "Cannot compute " ++ archetype ++ " of \"" ++ target ++ "\": " ++ reason
  | noTimestamp column => "Row has no \"" ++ column ++ "\" value to bucket by"
  | timestamp column shown => "Invalid \"" ++ column ++ "\" value: " ++ shown
  | noColumn column => "column \"" ++ column ++ "\" does not exist"
  | latest => "`latest` must be a positive integer"
  | interval choices => "`interval` must be one of " ++ choices
  | outliers choices => "`outliers` must be one of " ++ choices
  | cachedText key => "Cached value for \"" ++ key ++ "\" is not valid JSON"
  | cachedShape key => "Cached value for \"" ++ key ++ "\" is not an object"
  | cachedStatistics key => "Cached statistics for \"" ++ key ++ "\" are malformed"
  | rollupEntry key => "Rollup entry \"" ++ key ++ "\" is not numeric"
  | viewType => "Wrong or missing `type` parameter"
  | dayWithoutDate => "`dt` is required for `day` views"
  | referenceDate text => "Invalid `dt` parameter: " ++ text
  | backend text => text

/-- Choices in a message, each between grave accents. -/
def choices (names : List String) : String :=
  ", ".intercalate (names.map fun n => "`" ++ n ++ "`")

end Complaint
end EventQuery
