/-!
# Named classes

A class carries its name and the classes it declares as supertypes. Two classes are the same when both
agree, so a class redeclared with other supertypes is another class. `Object` stands above every class
and is recognised by its name alone.
-/

namespace TypedWire

/-- A named class with its declared supertypes. -/
inductive Class where
  | mk (name : String) (supertypes : List Class)
  deriving Repr

namespace Class

def name : Class → String
  | mk n _ => n

def supertypes : Class → List Class
  | mk _ ss => ss

mutual
/-- Whether two classes have one name and the same declared supertypes. -/
def same : Class → Class → Bool
  | mk n ss, mk m ts => n == m && sameList ss ts

/-- Whether two lists of classes are the same, place by place. -/
def sameList : List Class → List Class → Bool
  | [], [] => true
  | a :: as, b :: bs => same a b && sameList as bs
  | _, _ => false
end

mutual
theorem same_refl : ∀ a : Class, same a a = true
  | mk _ ss => by simp [same, sameList_refl ss]

theorem sameList_refl : ∀ as : List Class, sameList as as = true
  | [] => rfl
  | a :: as => by simp [sameList, same_refl a, sameList_refl as]
end

mutual
theorem eq_of_same : ∀ {a b : Class}, same a b = true → a = b
  | mk n ss, mk m ts, h => by
    simp only [same, Bool.and_eq_true, beq_iff_eq] at h
    rw [h.1, eq_of_sameList h.2]

theorem eq_of_sameList : ∀ {as bs : List Class}, sameList as bs = true → as = bs
  | [], [], _ => rfl
  | [], _ :: _, h => by simp [sameList] at h
  | _ :: _, [], h => by simp [sameList] at h
  | a :: as, b :: bs, h => by
    simp only [sameList, Bool.and_eq_true] at h
    rw [eq_of_same h.1, eq_of_sameList h.2]
end

theorem same_iff {a b : Class} : same a b = true ↔ a = b :=
  ⟨eq_of_same, fun h => h ▸ same_refl a⟩

instance : DecidableEq Class := fun a b =>
  decidable_of_iff (same a b = true) same_iff

def plain (name : String) : Class :=
  mk name []

/-- Whether a class is the root `Object`, whatever it declares. -/
def isObject (c : Class) : Bool :=
  c.name == "Object"

mutual
/-- Whether a class is `target` or reaches it along declared supertypes; every class is below
    `Object`. -/
def isSubclassOf : Class → Class → Bool
  | mk n ss, target => target.isObject || mk n ss == target || anySubclassOf ss target

/-- Whether one of the classes is below `target`. -/
def anySubclassOf : List Class → Class → Bool
  | [], _ => false
  | s :: ss, target => isSubclassOf s target || anySubclassOf ss target
end

theorem anySubclassOf_eq_any (target : Class) :
    ∀ ss : List Class, anySubclassOf ss target = ss.any (isSubclassOf · target)
  | [] => rfl
  | s :: ss => by simp [anySubclassOf, anySubclassOf_eq_any target ss]

/-! ### Well-known classes -/

def object : Class := plain "Object"

/-- The class above the boxed numeric kinds and the big numbers. -/
def number : Class := plain "Number"

def string : Class := plain "String"

def bigInteger : Class := mk "BigInteger" [number]

def bigDecimal : Class := mk "BigDecimal" [number]

def collection : Class := plain "Collection"

def list : Class := mk "List" [collection]

def uuid : Class := plain "Uuid"

def url : Class := plain "Url"

def uri : Class := plain "Uri"

def charset : Class := plain "Charset"

def timeZone : Class := plain "TimeZone"

def locale : Class := plain "Locale"

def optionalInt : Class := plain "OptionalInt"

def optionalLong : Class := plain "OptionalLong"

def optionalDouble : Class := plain "OptionalDouble"

/-- The classes that have a handle of their own. -/
def wellKnown : List Class :=
  [object, number, string, bigInteger, bigDecimal, collection, list, uuid, url, uri, charset,
    timeZone, locale, optionalInt, optionalLong, optionalDouble]

end Class

end TypedWire
