/-!
# Trading vocabulary

Sides and execution styles, with the words by which they are written.
-/

namespace ExposureControl

/-- Which way an order goes. -/
inductive Side
  | buy
  | sell
deriving DecidableEq, Repr

namespace Side

def text : Side → String
  | buy => "BUY"
  | sell => "SELL"

def ofText? : String → Option Side
  | "BUY" => some buy
  | "SELL" => some sell
  | _ => none

/-- `1` for a buy and `-1` for a sell: the sign with which a price rise counts. -/
def sign : Side → Float
  | buy => 1.0
  | sell => -1.0

/-- Buys come before sells where sides are put in order. -/
def rank : Side → Nat
  | buy => 0
  | sell => 1

end Side

/-- How an order is executed. -/
inductive OrderType
  | market
  | limit
deriving DecidableEq, Repr

namespace OrderType

def text : OrderType → String
  | market => "MARKET"
  | limit => "LIMIT"

def ofText? : String → Option OrderType
  | "MARKET" => some market
  | "LIMIT" => some limit
  | _ => none

end OrderType

end ExposureControl
