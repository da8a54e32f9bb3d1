import Mathlib.Algebra.Order.Ring.Nat
import Mathlib.Data.List.Basic

/-!
This module contains the abstract syntax of EDL files (`sdk/edger8r/linux/Ast.ml`).
-/

namespace Edger8r

inductive Signedness where
  | signed
  | unsigned
deriving DecidableEq

inductive Shortness where
  | iShort
  | iLong
  | iNone
deriving DecidableEq

structure IntAttr where
  iaSignedness : Signedness
  iaShortness : Shortness
deriving DecidableEq

inductive AType where
  | char (s : Signedness)
  | long (s : Signedness)
  | lLong (s : Signedness)
  | int (ia : IntAttr)
  | float
  | double
  | lDouble
  | int8
  | int16
  | int32
  | int64
  | uInt8
  | uInt16
  | uInt32
  | uInt64
  | void
  | wChar
  | sizeT
  | struct (id : String)
  | union (id : String)
  | enum (id : String)
  | foreign (s : String)
  | ptr (ty : AType)
deriving DecidableEq

inductive PtrDirection where
  | ptrIn
  | ptrOut
  | ptrInOut
  | ptrNoDirection
deriving DecidableEq

inductive AttrValue where
  | aString (s : String)
  | aNumber (n : Nat)
deriving DecidableEq

structure PtrSize where
  psSize : Option AttrValue
  psCount : Option AttrValue
deriving DecidableEq

structure PtrAttr where
  paDirection : PtrDirection
  paSize : PtrSize
  paIsPtr : Bool
  paIsAry : Bool
  paIsStr : Bool
  paIsWstr : Bool
  paRdOnly : Bool
  paChkPtr : Bool
deriving DecidableEq

inductive ParameterType where
  | ptVal (ty : AType)
  | ptPtr (ty : AType) (attr : PtrAttr)
deriving DecidableEq

structure Declarator where
  identifier : String
  arrayDims : List Nat
deriving DecidableEq

abbrev PDecl := ParameterType × Declarator

def getParamAType : ParameterType → AType
  | .ptVal ty => ty
  | .ptPtr ty _ => ty

end Edger8r
