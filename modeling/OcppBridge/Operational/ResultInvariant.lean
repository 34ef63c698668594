import OcppBridge.Operational.ResultHistory

namespace OcppBridge.Operational

open Storage Transaction Relation CommandResult

variable {P : Type} {Q : CommandResult → Prop} {request : RequestId}

/-- A property of results that whatever the store does to a result of its own keeps. -/
structure Maintained (P : Type) [Wire P] (Q : CommandResult → Prop) : Prop where
  refresh : ∀ {ρ : Type} {shape : Shape ρ} {drawer : Drawer P shape} {rules : Desk.Rules ρ}, Family drawer rules →
    ∀ {record : ρ} {p q : CommandResult}, shape.refresh record p = some q → Q p → Q q
  publish : ∀ {ρ : Type} {shape : Shape ρ} {drawer : Drawer P shape} {rules : Desk.Rules ρ}
    {own : Table shape.key → Entry ρ → Entry ρ → Prop} {publish : ρ → CommandResult → CommandResult},
    Publisher drawer rules own publish → ∀ (record : ρ) {p : CommandResult}, Q p → Q (publish record p)
  opened : ∀ {p : CommandResult}, Q p → Q p.opened
  merge : ∀ {p q r : CommandResult} {retire : Bool}, merge P p q = .ok (r, retire) → Q p → Q q → Q r
  bound : ∀ {p q : CommandResult}, Store.boundResult (P := P) p = .ok q → Q p → Q q
  edit : ∀ {p q : CommandResult}, Edit p q → Q p → Q q
  rework : ∀ {p q : CommandResult}, Rework p q → Q p → Q q

def Journal.Holds (request : RequestId) (Q : CommandResult → Prop) (j : Journal P) : Prop :=
  ∀ row ∈ j.results, row.request = request → Q row.payload

theorem Journal.Holds.replace {j : Journal P} {row row' : ResultRow} (h : j.Holds request Q) (hrow : row ∈ j.results)
    (hrequest : row'.request = row.request) (hkeep : Q row.payload → Q row'.payload) :
    ({ j with results := j.results.replace row' } : Journal P).Holds request Q := by
  intro r hr hk
  rcases Table.mem_replace.mp hr with ⟨hr, _⟩ | ⟨rfl, _⟩
  · exact h r hr hk
  · exact hkeep (h row hrow (hrequest.symm.trans hk))

theorem Journal.Holds.result? {j : Journal P} {payload : CommandResult} (h : j.Holds request Q)
    (hresult : j.result? request = some payload) : Q payload := by
  obtain ⟨row, hrow, hrequest, rfl⟩ := Journal.result?_eq_some.mp hresult
  exact h row hrow hrequest

namespace Maintained

variable [Wire P] {s s' : Store P} {sent : CommandResult → Prop}

section

variable (hQ : Maintained P Q)

include hQ

theorem move {ρ : Type} {shape : Shape ρ} {drawer : Drawer P shape} {rules : Desk.Rules ρ}
    {d d' : Desk P shape} (hf : Family drawer rules) (hmove : Desk.Move rules d d') (h : d.journal.Holds request Q) :
    d'.journal.Holds request Q := by
  rcases hmove.journal_eq with heq | ⟨e, _, payload, result, hresult, hrefresh, heq⟩
  · rw [heq]
    exact h
  · obtain ⟨row, hrow, hrequest, rfl⟩ := Journal.result?_eq_some.mp hresult
    rw [heq, ← hrequest, Journal.setPayload_of_mem hrow]
    exact h.replace hrow rfl (hQ.refresh hf hrefresh)

theorem moves {ρ : Type} {shape : Shape ρ} {drawer : Drawer P shape} {rules : Desk.Rules ρ}
    {d d' : Desk P shape} (hf : Family drawer rules) (hmoves : Desk.Moves rules d d') (h : d.journal.Holds request Q) :
    d'.journal.Holds request Q := by
  induction hmoves with
  | refl => exact h
  | tail _ hmove ih => exact hQ.move hf hmove ih

theorem publishes {a b : Store P × CommandResult} (hab : ReflTransGen Publishes a b)
    (h : a.1.journal.Holds request Q) : b.1.journal.Holds request Q ∧ (Q a.2 → Q b.2) := by
  induction hab with
  | refl => exact ⟨h, id⟩
  | tail _ hlast ih =>
      cases hlast with
      | intro hp hfinished =>
          cases hfinished with
          | intro _ _ hmoves he hs _ _ hsave =>
              refine ⟨?_, fun ha => hQ.publish hp _ (ih.2 ha)⟩
              have hjournal := (Desk.save_of_mem he hs.1 hsave).2
              cases hp
              all_goals
                have hkept := hQ.moves (Publisher.family (by constructor)) hmoves ih.1
                rw [← hjournal] at hkept
                exact hkept

theorem written {incoming : CommandResult} {target : RequestId}
    (hwrite : Written s incoming target s') (h : s.journal.Holds request Q)
    (hincoming : target = request → Q incoming) : s'.journal.Holds request Q := by
  cases hwrite with
  | @intro mid previous published merged bounded retire profiles hprevious hpublish hmerge hbound _ _ =>
      obtain ⟨hmid, hpublished⟩ := hQ.publishes hpublish h
      intro row hrow hrequest
      rcases Table.mem_put.mp hrow with ⟨hrow, _⟩ | rfl
      · exact hmid row hrow hrequest
      · have htarget : target = request := hrequest
        have hbrought := hpublished (hincoming htarget)
        subst htarget
        refine hQ.bound hbound ?_
        cases previous with
        | none =>
            simp only [mergeStored, pure_eq_ok, Prod.mk.injEq] at hmerge
            obtain ⟨rfl, _⟩ := hmerge
            exact hQ.opened hbrought
        | some p =>
            have hp : Q p := h.result? (Store.commandResult_eq_some.mp hprevious).1
            exact hQ.merge hmerge hp hbrought

theorem change (hchange : Change sent s s')
    (hsent : ∀ incoming, sent incoming → incoming.request = request → Q incoming) (h : s.journal.Holds request Q) :
    s'.journal.Holds request Q := by
  cases hchange with
  | outside | admission | fence | retireEnded | reserve => exact h
  | edit hrow _ hedit _ => exact h.replace hrow rfl (hQ.edit hedit)
  | move hf hmove =>
      cases hf
      all_goals exact hQ.move (by constructor) hmove h
  | result hwrite hsource =>
      refine hQ.written (Store.writeResultValue_written hwrite) h fun htarget => ?_
      rcases hsource with ⟨hincoming, hrequest⟩ | ⟨stored, hstored, hrework⟩
      · exact hsent _ hincoming (hrequest.symm.trans htarget)
      · exact hQ.rework hrework (h.result? (htarget ▸ hstored))

theorem step {r : Request P}
    (hsent : ∀ incoming, r.brings incoming → incoming.request = request → Q incoming) (h : s.journal.Holds request Q) :
    (s.step r).journal.Holds request Q := by
  refine Store.step_rel (R := fun s s' => s.journal.Holds request Q → s'.journal.Holds request Q) (fun _ => id) ?_ h
  intro s' hs
  rcases Store.handle_changes hs with hchanges | ⟨now, _, rfl⟩
  · clear hs
    intro h
    induction hchanges with
    | refl => exact h
    | tail _ hchange ih => exact hQ.change hchange hsent ih
  · intro h row hrow
    exact h row (Table.mem_keep.mp hrow).1

end

end Maintained

end OcppBridge.Operational
