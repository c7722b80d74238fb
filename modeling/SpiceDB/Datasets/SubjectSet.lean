import SpiceDB.Core.Dispatch
import SpiceDB.Datasets.Semantics

namespace SpiceDB.Datasets

instance : Subject FoundSubject where
  subjectId := FoundSubject.subjectId
  caveatExpression := FoundSubject.caveatExpression
  excludedSubjects := FoundSubject.excludedSubjects

theorem subjectId_foundSubject (f : FoundSubject) : subjectId f = f.subjectId := rfl

theorem caveatExpression_foundSubject (f : FoundSubject) : caveatExpression f = f.caveatExpression := rfl

theorem excludedSubjects_foundSubject (f : FoundSubject) : excludedSubjects f = f.excludedSubjects := rfl

def subjectSetConstructor : Constructor FoundSubject :=
  fun subjectID caveatExpression excludedSubjects _ => ⟨subjectID, caveatExpression, excludedSubjects⟩

abbrev SubjectSet := BaseSubjectSet FoundSubject

def newSubjectSet : SubjectSet := newBaseSubjectSet subjectSetConstructor

def asFoundSubjects (ss : SubjectSet) : List FoundSubject := ss.asSlice

theorem subjectSetConstructor_lawful : LawfulConstructor subjectSetConstructor where
  subjectId_eq _ _ _ _ := rfl
  caveatExpression_eq _ _ _ _ := rfl
  excludedSubjects_eq _ _ _ _ := rfl

end SpiceDB.Datasets
