import Seance.Auth.Steps

namespace Seance.Auth
open Lib

variable {J : Type} {s t : Store J} {op : Op J} {a : op.Answer}

theorem insertChallenge_eq_some {row : ChallengeRow} (h : s.insertChallenge row = some t) :
    s.challengeOf row.hashedToken = none ∧ ∃ challenges,
      s.challenges.insert? row = some challenges ∧ { s with challenges } = t := by
  obtain ⟨hnone, h⟩ := Option.ite_none_right_eq_some.mp h
  exact ⟨Option.isNone_iff_eq_none.mp hnone, Option.map_eq_some_iff.mp h⟩

theorem insertUser_eq_some {row : Sync.UserRow} (h : s.insertUser row = some t) :
    ∃ users, s.server.db.users.insert? row = some users ∧
      { s with server := { s.server with db := { s.server.db with users } } } = t :=
  Option.map_eq_some_iff.mp (Option.ite_none_right_eq_some.mp h).2

theorem insertSession_eq_some {row : SessionRow} (h : s.insertSession row = some t) :
    s.sessionOf row.refreshTokenHash = none ∧ ∃ sessions,
      s.sessions.insert? row = some sessions ∧ { s with sessions } = t := by
  obtain ⟨hcheck, h⟩ := Option.ite_none_right_eq_some.mp h
  rw [Bool.and_eq_true] at hcheck
  exact ⟨Option.isNone_iff_eq_none.mp hcheck.2, Option.map_eq_some_iff.mp h⟩

/-- What an UPDATE of a session's hash makes of the session. -/
def SessionRow.rotated (replacementHash : String) (now expiresAt : Int) (r : SessionRow) :
    SessionRow :=
  { r with refreshTokenHash := replacementHash, issuedAt := now, expiresAt }

theorem updateSession_eq_some {sessionId replacementHash : String} {now expiresAt : Int}
    (h : s.updateSession sessionId replacementHash now expiresAt = some t) :
    ((s.sessions.find? sessionId).isSome →
      ∀ r ∈ s.sessions.rows, r.refreshTokenHash = replacementHash → r.sessionId = sessionId) ∧
    { s with
      sessions := s.sessions.update (fun r => r.sessionId = sessionId)
        (SessionRow.rotated replacementHash now expiresAt) (fun _ => rfl) } = t := by
  obtain ⟨hfree, h⟩ := Option.ite_none_left_eq_some.mp h
  refine ⟨?_, Option.some.inj h⟩
  simpa using hfree

/-- What a statement does to the challenges. -/
theorem apply_challenges (h : op.apply s = some (a, t)) :
    t.challenges = s.challenges ∨
    (∃ row, op = .insertChallenge row ∧ s.challengeOf row.hashedToken = none ∧
      s.challenges.insert? row = some t.challenges) ∨
    ∃ challengeId now, op = .consumeChallenge challengeId now ∧
      t = s.consumeChallenge challengeId now := by
  cases op with
  | insertChallenge row =>
    obtain ⟨u, hu, he⟩ := Option.map_eq_some_iff.mp h
    cases he
    obtain ⟨hnone, challenges, hins, rfl⟩ := insertChallenge_eq_some hu
    exact .inr (.inl ⟨row, rfl, hnone, hins⟩)
  | consumeChallenge challengeId now =>
    cases h
    exact .inr (.inr ⟨challengeId, now, rfl, rfl⟩)
  | sync op =>
    obtain ⟨u, _, he⟩ := Option.map_eq_some_iff.mp h
    cases he
    exact .inl rfl
  | insertUser row =>
    obtain ⟨u, hu, he⟩ := Option.map_eq_some_iff.mp h
    cases he
    obtain ⟨users, _, rfl⟩ := insertUser_eq_some hu
    exact .inl rfl
  | insertSession row =>
    obtain ⟨u, hu, he⟩ := Option.map_eq_some_iff.mp h
    cases he
    obtain ⟨_, sessions, _, rfl⟩ := insertSession_eq_some hu
    exact .inl rfl
  | updateSession sessionId replacementHash now expiresAt =>
    obtain ⟨u, hu, he⟩ := Option.map_eq_some_iff.mp h
    cases he
    obtain ⟨_, rfl⟩ := updateSession_eq_some hu
    exact .inl rfl
  | _ =>
    cases h
    exact .inl rfl

/-- What a statement does to the sessions. -/
theorem apply_sessions (h : op.apply s = some (a, t)) :
    t.sessions = s.sessions ∨
    (∃ row, op = .insertSession row ∧ s.sessionOf row.refreshTokenHash = none ∧
      s.sessions.insert? row = some t.sessions) ∨
    (∃ sessionId replacementHash now expiresAt,
      op = .updateSession sessionId replacementHash now expiresAt ∧
      s.updateSession sessionId replacementHash now expiresAt = some t) ∨
    ∃ refreshTokenHash now, op = .revokeSession refreshTokenHash now ∧
      t = s.revokeSession refreshTokenHash now := by
  cases op with
  | insertSession row =>
    obtain ⟨u, hu, he⟩ := Option.map_eq_some_iff.mp h
    cases he
    obtain ⟨hnone, sessions, hins, rfl⟩ := insertSession_eq_some hu
    exact .inr (.inl ⟨row, rfl, hnone, hins⟩)
  | updateSession sessionId replacementHash now expiresAt =>
    obtain ⟨u, hu, he⟩ := Option.map_eq_some_iff.mp h
    cases he
    exact .inr (.inr (.inl ⟨_, _, _, _, rfl, hu⟩))
  | revokeSession refreshTokenHash now =>
    cases h
    exact .inr (.inr (.inr ⟨refreshTokenHash, now, rfl, rfl⟩))
  | sync op =>
    obtain ⟨u, _, he⟩ := Option.map_eq_some_iff.mp h
    cases he
    exact .inl rfl
  | insertChallenge row =>
    obtain ⟨u, hu, he⟩ := Option.map_eq_some_iff.mp h
    cases he
    obtain ⟨_, challenges, _, rfl⟩ := insertChallenge_eq_some hu
    exact .inl rfl
  | insertUser row =>
    obtain ⟨u, hu, he⟩ := Option.map_eq_some_iff.mp h
    cases he
    obtain ⟨users, _, rfl⟩ := insertUser_eq_some hu
    exact .inl rfl
  | _ =>
    cases h
    exact .inl rfl

/-- No statement changes the users that there are. -/
theorem users_apply (h : op.apply s = some (a, t)) :
    s.server.db.users.Keeps t.server.db.users := by
  cases op with
  | sync op =>
    obtain ⟨u, hu, he⟩ := Option.map_eq_some_iff.mp h
    cases he
    rw [Sync.users_apply hu]
    exact .refl _
  | insertUser row =>
    obtain ⟨u, hu, he⟩ := Option.map_eq_some_iff.mp h
    cases he
    obtain ⟨users, hins, rfl⟩ := insertUser_eq_some hu
    exact Table.keeps_insert? hins
  | insertChallenge row =>
    obtain ⟨u, hu, he⟩ := Option.map_eq_some_iff.mp h
    cases he
    obtain ⟨_, challenges, _, rfl⟩ := insertChallenge_eq_some hu
    exact .refl _
  | insertSession row =>
    obtain ⟨u, hu, he⟩ := Option.map_eq_some_iff.mp h
    cases he
    obtain ⟨_, sessions, _, rfl⟩ := insertSession_eq_some hu
    exact .refl _
  | updateSession sessionId replacementHash now expiresAt =>
    obtain ⟨u, hu, he⟩ := Option.map_eq_some_iff.mp h
    cases he
    obtain ⟨_, rfl⟩ := updateSession_eq_some hu
    exact .refl _
  | _ =>
    cases h
    exact .refl _

end Seance.Auth
