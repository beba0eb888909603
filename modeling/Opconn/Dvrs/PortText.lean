import Mathlib.Order.Basic
import Opconn.Vos.ConfigValues

/-!
# Texts of port lists

A port list is written as decimal numbers and ranges between commas.  Every text begins with as
many whole items as there are, and what is behind them cannot be read on; a text that is nothing
but items has them in one way only.
-/

namespace Opconn.Dvrs

open Opconn.Vos (CStr digitValue digitsValue)

/-- `'0'`, `'9'`, `','`, `'-'` and `' '`. -/
def zero : UInt8 := 48
def nine : UInt8 := 57
def comma : UInt8 := 44
def dash : UInt8 := 45
def blank : UInt8 := 32

def isDigit (c : UInt8) : Bool := zero ≤ c && c ≤ nine

/-- There is a character, and it is a digit. -/
def digitAt (c : Option UInt8) : Bool := c.any isDigit

/-! ### Items -/

/-- The digits of a number. -/
structure Number where
  digits : CStr
  ne : digits ≠ []
  all : ∀ c ∈ digits, isDigit c = true

def Number.value (n : Number) : Nat := digitsValue 10 n.digits

/-- No zero in front of other digits. -/
def Number.Plain (n : Number) : Prop := ∀ c rest, n.digits ≠ zero :: c :: rest

/-- A port, or a range with its two ends as they are written. -/
inductive Item where
  | port (n : Number)
  | range (a b : Number)

def Item.text : Item → CStr
  | .port n => n.digits
  | .range a b => a.digits ++ dash :: b.digits

/-- The items between commas, and `rest`. -/
def line (rest : CStr) : List Item → CStr
  | [] => rest
  | [item] => item.text ++ rest
  | item :: item' :: items => item.text ++ comma :: line rest (item' :: items)

theorem line_cons {rest : CStr} {item : Item} {items : List Item} (h : items ≠ []) :
    line rest (item :: items) = item.text ++ comma :: line rest items := by
  cases items with
  | nil => exact absurd rfl h
  | cons item' items => rfl

theorem line_append (r rest : CStr) {items : List Item} (h : items ≠ []) :
    line (r ++ rest) items = line r items ++ rest := by
  induction items with
  | nil => exact absurd rfl h
  | cons item items ih =>
    cases items with
    | nil => exact (List.append_assoc ..).symm
    | cons item' items =>
      rw [line, line, ih (List.cons_ne_nil _ _), List.append_assoc, List.cons_append]

/-! ### Reading -/

/-- The number that a text with a digit at its beginning begins with. -/
theorem exists_number {s : CStr} (h : digitAt s.head? = true) :
    ∃ (n : Number) (rest : CStr), s = n.digits ++ rest ∧ digitAt rest.head? = false := by
  cases s with
  | nil => cases h
  | cons c s =>
    have hc : isDigit c = true := h
    refine ⟨⟨(c :: s).takeWhile isDigit, ?_, fun d hd => List.mem_takeWhile_imp hd⟩,
      (c :: s).dropWhile isDigit, (List.takeWhile_append_dropWhile).symm, ?_⟩
    · rw [List.takeWhile_cons_of_pos hc]
      exact List.cons_ne_nil _ _
    · cases hrest : (c :: s).dropWhile isDigit with
      | nil => rfl
      | cons d rest =>
        have hd := List.head?_dropWhile_not isDigit (c :: s)
        rw [hrest] at hd
        simpa [digitAt] using hd

/-- `rest` does not go on with a digit, a range, or another item. -/
structure Ends (item : Item) (rest : CStr) : Prop where
  digit : digitAt rest.head? = false
  next : ∀ r, rest = comma :: r → digitAt r.head? = false
  range : ∀ n, item = .port n → ∀ r, rest = dash :: r → digitAt r.head? = false

/-- `rest` is what is left behind the items. -/
def Reads (rest : CStr) : List Item → Prop
  | [] => digitAt rest.head? = false
  | [item] => Ends item rest
  | _ :: item' :: items => Reads rest (item' :: items)

/-- The item that a text begins with. -/
theorem exists_item {s : CStr} (h : digitAt s.head? = true) :
    ∃ (item : Item) (rest : CStr), s = item.text ++ rest ∧ digitAt rest.head? = false ∧
      ∀ n, item = .port n → ∀ r, rest = dash :: r → digitAt r.head? = false := by
  obtain ⟨a, rest, rfl, hrest⟩ := exists_number h
  by_cases hrange : ∃ r, rest = dash :: r ∧ digitAt r.head? = true
  · obtain ⟨r, rfl, hr⟩ := hrange
    obtain ⟨b, rest, rfl, hb⟩ := exists_number hr
    refine ⟨.range a b, rest, ?_, hb, ?_⟩
    · rw [Item.text, List.append_assoc, List.cons_append]
    · intro n hn
      cases hn
  · refine ⟨.port a, rest, rfl, hrest, ?_⟩
    intro n _ r hr
    by_contra hdigit
    exact hrange ⟨r, hr, by simpa using hdigit⟩

/-- **Reading.**  Every text is items and what is behind them. -/
theorem exists_reading (s : CStr) :
    ∃ (items : List Item) (rest : CStr), s = line rest items ∧ Reads rest items := by
  induction hlen : s.length using Nat.strong_induction_on generalizing s with
  | _ k ih =>
    cases hs : digitAt s.head? with
    | false => exact ⟨[], s, rfl, hs⟩
    | true =>
      obtain ⟨item, rest, rfl, hdigit, hrange⟩ := exists_item hs
      by_cases hnext : ∃ r, rest = comma :: r ∧ digitAt r.head? = true
      · obtain ⟨r, rfl, hr⟩ := hnext
        have hlt : r.length < k := by
          rw [← hlen, List.length_append, List.length_cons]
          omega
        obtain ⟨items, rest, hline, hreads⟩ := ih r.length hlt r rfl
        have hne : items ≠ [] := by
          rintro rfl
          have hfalse : digitAt r.head? = false := by rw [hline]; exact hreads
          rw [hr] at hfalse
          cases hfalse
        refine ⟨item :: items, rest, ?_, ?_⟩
        · rw [line_cons hne, hline]
        · cases items with
          | nil => exact absurd rfl hne
          | cons item' items => exact hreads
      · refine ⟨[item], rest, rfl, hdigit, ?_, hrange⟩
        intro r hr
        by_contra hfound
        exact hnext ⟨r, hr, by simpa using hfound⟩

/-! ### One way to read -/

theorem Number.ext {a b : Number} (h : a.digits = b.digits) : a = b := by
  cases a
  cases b
  cases h
  rfl

theorem Number.append_inj {a b : Number} {r r' : CStr} (hr : digitAt r.head? = false)
    (hr' : digitAt r'.head? = false) (h : a.digits ++ r = b.digits ++ r') : a = b ∧ r = r' := by
  have htake : ∀ (n : Number) (t : CStr), digitAt t.head? = false →
      (n.digits ++ t).takeWhile isDigit = n.digits := by
    intro n t ht
    have hstop : t.takeWhile isDigit = [] := by
      cases t with
      | nil => rfl
      | cons c t => exact List.takeWhile_cons_of_neg (by simpa [digitAt] using ht)
    rw [List.takeWhile_append_of_pos n.all, hstop, List.append_nil]
  have hdigits : a.digits = b.digits := by rw [← htake a r hr, h, htake b r' hr']
  refine ⟨Number.ext hdigits, ?_⟩
  rw [hdigits] at h
  exact List.append_cancel_left h

/-- Where the text of an item ends: at a comma, or at the end of the text. -/
def Closed (r : CStr) : Prop := r = [] ∨ ∃ t, r = comma :: t

theorem Closed.not_digit {r : CStr} (h : Closed r) : digitAt r.head? = false := by
  rcases h with rfl | ⟨t, rfl⟩
  · rfl
  · rfl

theorem Closed.not_dash {r t : CStr} (h : Closed r) : r ≠ dash :: t := by
  rcases h with rfl | ⟨u, rfl⟩
  · exact (List.cons_ne_nil _ _).symm
  · intro heq
    exact absurd (List.cons.inj heq).1 (by decide)

theorem Item.append_inj {item item' : Item} {r r' : CStr} (hr : Closed r) (hr' : Closed r')
    (h : item.text ++ r = item'.text ++ r') : item = item' ∧ r = r' := by
  have hdash : ∀ t : CStr, digitAt (dash :: t).head? = false := fun _ => rfl
  cases item with
  | port n =>
    cases item' with
    | port n' =>
      obtain ⟨rfl, hrest⟩ := Number.append_inj hr.not_digit hr'.not_digit h
      exact ⟨rfl, hrest⟩
    | range a b =>
      rw [Item.text, Item.text, List.append_assoc, List.cons_append] at h
      exact absurd (Number.append_inj hr.not_digit (hdash _) h).2 hr.not_dash
  | range a b =>
    cases item' with
    | port n' =>
      rw [Item.text, Item.text, List.append_assoc, List.cons_append] at h
      exact absurd (Number.append_inj (hdash _) hr'.not_digit h).2.symm hr'.not_dash
    | range a' b' =>
      rw [Item.text, Item.text, List.append_assoc, List.append_assoc, List.cons_append,
        List.cons_append] at h
      obtain ⟨rfl, hrest⟩ := Number.append_inj (hdash _) (hdash _) h
      obtain ⟨rfl, hend⟩ := Number.append_inj hr.not_digit hr'.not_digit (List.cons.inj hrest).2
      exact ⟨rfl, hend⟩

/-- **One way to read.** -/
theorem line_inj {items items' : List Item} (hne : items ≠ []) (hne' : items' ≠ [])
    (h : line [] items = line [] items') : items = items' := by
  induction items generalizing items' with
  | nil => exact absurd rfl hne
  | cons item items ih =>
    obtain ⟨item', items', rfl⟩ := List.exists_cons_of_ne_nil hne'
    have hsplit : ∀ (it : Item) (its : List Item), ∃ r, line [] (it :: its) = it.text ++ r ∧
        Closed r ∧ ((its = [] ∧ r = []) ∨ (its ≠ [] ∧ r = comma :: line [] its)) := by
      intro it its
      cases its with
      | nil => exact ⟨[], rfl, .inl rfl, .inl ⟨rfl, rfl⟩⟩
      | cons it' its => exact ⟨_, rfl, .inr ⟨_, rfl⟩, .inr ⟨List.cons_ne_nil _ _, rfl⟩⟩
    obtain ⟨r, hr, hclosed, hcases⟩ := hsplit item items
    obtain ⟨r', hr', hclosed', hcases'⟩ := hsplit item' items'
    rw [hr, hr'] at h
    obtain ⟨rfl, rfl⟩ := Item.append_inj hclosed hclosed' h
    rcases hcases with ⟨rfl, rfl⟩ | ⟨hitems, rfl⟩
    · rcases hcases' with ⟨rfl, -⟩ | ⟨-, hnil⟩
      · rfl
      · cases hnil
    · rcases hcases' with ⟨-, hnil⟩ | ⟨hitems', htail⟩
      · cases hnil
      · rw [ih hitems hitems' (List.cons.inj htail).2]

/-- What stands in a text of items. -/
theorem mem_line {items : List Item} {c : UInt8} (h : c ∈ line [] items) :
    isDigit c = true ∨ c = dash ∨ c = comma := by
  have htext : ∀ item : Item, c ∈ item.text → isDigit c = true ∨ c = dash ∨ c = comma := by
    intro item hc
    cases item with
    | port n => exact .inl (n.all c hc)
    | range a b =>
      rcases List.mem_append.mp hc with hc | hc
      · exact .inl (a.all c hc)
      · rcases List.mem_cons.mp hc with rfl | hc
        · exact .inr (.inl rfl)
        · exact .inl (b.all c hc)
  induction items with
  | nil => cases h
  | cons item items ih =>
    cases items with
    | nil =>
      rw [line, List.append_nil] at h
      exact htext item h
    | cons item' items =>
      rw [line] at h
      rcases List.mem_append.mp h with h | h
      · exact htext item h
      · rcases List.mem_cons.mp h with rfl | h
        · exact .inr (.inr rfl)
        · exact ih h

end Opconn.Dvrs
