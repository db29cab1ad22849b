import GoToSymbol.Query.Tree
import GoToSymbol.Store.Segment

namespace GoToSymbol.Query

open Store

mutual
/-- Whether a document meets a query; a field is tested token by token. -/
def accepts : Query → Stored → Bool
  | token field test, d => (d.tokens field).any test.admits
  | anyOf subs, d => acceptsAny subs d
  | allOf subs, d => acceptsAll subs d
  | without kept excluded, d => accepts kept d && !accepts excluded d
  | best subs _, d => acceptsAny subs d

def acceptsAny : List Query → Stored → Bool
  | [], _ => false
  | q :: qs, d => accepts q d || acceptsAny qs d

def acceptsAll : List Query → Stored → Bool
  | [], _ => true
  | q :: qs, d => accepts q d && acceptsAll qs d
end

theorem acceptsAny_eq_any (qs : List Query) (d : Stored) :
    acceptsAny qs d = qs.any (·.accepts d) := by
  induction qs with
  | nil => rfl
  | cons q qs ih => simp [acceptsAny, ih]

theorem acceptsAll_eq_all (qs : List Query) (d : Stored) :
    acceptsAll qs d = qs.all (·.accepts d) := by
  induction qs with
  | nil => rfl
  | cons q qs ih => simp [acceptsAll, ih]

theorem accepts_forFile (uri : String) (d : Stored) :
    (forFile uri).accepts d = true ↔ d.file = some uri := by
  cases h : d.file with
  | none => simp [forFile, accepts, Stored.tokens, h, fileField, fqnField]
  | some f =>
    simp [forFile, accepts, Stored.tokens, h, fileField, fqnField, TokenTest.admits,
      String.toList_inj]

end GoToSymbol.Query

namespace GoToSymbol.Store.Segment

def meets (q : Query) (slot : Slot) : Bool := !slot.deleted && q.accepts slot.doc

/-- The documents a deletion by query would mark; those marked before do not count again. -/
def countMet (q : Query) (s : Segment) : Nat := s.slots.countP (meets q)

/-- Marks the documents that match a query. -/
def erase (q : Query) (s : Segment) : Segment :=
  s.mapSlots fun slot => if meets q slot then slot.delete else slot

theorem live_erase (q : Query) (s : Segment) :
    (s.erase q).live = s.live.filter fun slot => !q.accepts slot.doc := by
  cases s with
  | mk serial slots =>
    induction slots with
    | nil => rfl
    | cons slot rest ih =>
      simp only [live, erase, mapSlots, List.map_cons, List.filter_cons] at ih ⊢
      cases hd : slot.deleted <;> cases hq : q.accepts slot.doc <;>
        simp_all [meets, Slot.delete]

end GoToSymbol.Store.Segment
