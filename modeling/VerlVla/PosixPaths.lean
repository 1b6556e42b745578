import Mathlib.Data.List.Basic
import Mathlib.Tactic.Common

/-!
# Paths

A path is a root and its parts.  Empty parts and single dots of a text are left
out, and two leading slashes are kept as a root of their own.
-/

namespace VerlVla

open List hiding cons nil

inductive PathRoot
  | relative
  | slash
  | twoSlashes
  deriving DecidableEq

def PathRoot.text : PathRoot → List Char
  | .relative => []
  | .slash => ['/']
  | .twoSlashes => ['/', '/']

structure PosixPath where
  root : PathRoot
  parts : List (List Char)
  deriving DecidableEq

namespace PosixPath

def isPart (part : List Char) : Bool := part ≠ [] && part ≠ ['.']

def parse (text : List Char) : PosixPath where
  root := match text with
    | '/' :: '/' :: '/' :: _ => .slash
    | '/' :: '/' :: _ => .twoSlashes
    | '/' :: _ => .slash
    | _ => .relative
  parts := (text.splitOn '/').filter isPart

def text (path : PosixPath) : List Char :=
  if path.root = .relative ∧ path.parts = [] then ['.']
  else path.root.text ++ ['/'].intercalate path.parts

def isAbsolute (path : PosixPath) : Bool := path.root ≠ .relative

def join (path other : PosixPath) : PosixPath := if other.isAbsolute then other
  else ⟨path.root, path.parts ++ other.parts⟩

end PosixPath

def joinText (directory name : List Char) : List Char :=
  if directory.getLast? = some '/' then directory ++ name
  else directory ++ '/' :: name

theorem splitOn_append (hname : '/' ∉ name) (text : List Char) :
    ∃ front last, text.splitOn '/' = front ++ [last] ∧
      (text ++ name).splitOn '/' = front ++ [last ++ name] := by
  induction text with
  | nil => exact ⟨[], [], rfl, splitOn_eq_singleton hname⟩
  | cons char text ih =>
    obtain ⟨front, last, htext, hboth⟩ := ih
    rw [cons_append, splitOn_cons_eq_if_modifyHead,
      splitOn_cons_eq_if_modifyHead, htext, hboth]
    by_cases hslash : (char == '/') = true
    · rw [if_pos hslash, if_pos hslash]
      exact ⟨[] :: front, last, rfl, rfl⟩
    · rw [if_neg hslash, if_neg hslash]
      cases front with
      | nil => exact ⟨[], char :: last, rfl, rfl⟩
      | cons first front => exact ⟨(char :: first) :: front, last, rfl, rfl⟩

theorem intercalate_snoc_append (front : List (List Char))
    (last name : List Char) :
    ['/'].intercalate (front ++ [last ++ name]) =
      ['/'].intercalate (front ++ [last]) ++ name := by
  induction front with
  | nil => simp
  | cons first front ih =>
    have hne : ∀ part : List Char, front ++ [part] ≠ [] :=
      fun _ => append_ne_nil_of_right_ne_nil _ (cons_ne_nil _ _)
    rw [cons_append, cons_append, intercalate_cons_of_ne_nil (hne _), ih,
      intercalate_cons_of_ne_nil (hne _)]
    simp only [append_assoc]

theorem PosixPath.isAbsolute_parse_slash (text : List Char) :
    (parse ('/' :: text)).isAbsolute = true := by
  unfold isAbsolute parse
  split <;> simp_all

theorem PosixPath.text_of_isAbsolute {path : PosixPath}
    (habsolute : path.isAbsolute = true) :
    ∃ rest, path.text = '/' :: rest := by
  unfold isAbsolute at habsolute
  unfold text
  cases hroot : path.root with
  | relative => simp [hroot] at habsolute
  | slash => exact ⟨['/'].intercalate path.parts, rfl⟩
  | twoSlashes => exact ⟨'/' :: ['/'].intercalate path.parts, rfl⟩

theorem PosixPath.isAbsolute_join {directory : PosixPath}
    (habsolute : directory.isAbsolute = true) (other : PosixPath) :
    (directory.join other).isAbsolute = true := by
  unfold join
  split_ifs with hother
  · exact hother
  · exact habsolute

theorem PosixPath.text_join_append (directory : PosixPath) (hname : '/' ∉ name)
    (hlong : 1 < name.length) {text : List Char}
    (hrelative : (parse (text ++ name)).isAbsolute = false) :
    ∃ before, (directory.join (parse (text ++ name))).text =
      before ++ name := by
  obtain ⟨front, last, _, hboth⟩ := splitOn_append hname text
  have hpart : isPart (last ++ name) = true := by
    have hlength : 1 < (last ++ name).length := by
      rw [length_append]
      omega
    rw [isPart, Bool.and_eq_true, decide_eq_true_eq, decide_eq_true_eq]
    constructor
    · intro hnil
      simp [hnil] at hlength
    · intro hdot
      simp [hdot] at hlength
  have hparts : (parse (text ++ name)).parts =
      front.filter isPart ++ [last ++ name] := by
    change ((text ++ name).splitOn '/').filter isPart = _
    rw [hboth, filter_append, filter_singleton, hpart]
    rfl
  rw [join, hrelative, if_neg Bool.false_ne_true, PosixPath.text, hparts,
    if_neg (by simp), ← append_assoc, intercalate_snoc_append,
    ← append_assoc]
  exact ⟨_, rfl⟩

end VerlVla
