namespace ChipEight

structure SystemError where
  reason : String
  /-- Absent when the request never reached the system. -/
  code : Option Nat
deriving DecidableEq, Repr

namespace SystemError

def message (error : SystemError) : String :=
  match error.code with
  | some code => s!"{error.reason} (os error {code})"
  | none => error.reason

def notFound : SystemError := ⟨"No such file or directory", some 2⟩
def permissionDenied : SystemError := ⟨"Permission denied", some 13⟩
def unavailable : SystemError := ⟨"Resource temporarily unavailable", some 11⟩
def notDirectory : SystemError := ⟨"Not a directory", some 20⟩
def isDirectory : SystemError := ⟨"Is a directory", some 21⟩
def nameTooLong : SystemError := ⟨"File name too long", some 36⟩
def unexpectedNul : SystemError := ⟨"file name contained an unexpected NUL byte", none⟩

def known : List SystemError :=
  [notFound, unavailable, permissionDenied, notDirectory, isDirectory, nameTooLong]

def ofCode (code : Nat) (reason : String) : SystemError :=
  (known.find? fun error => error.code == some code).getD ⟨reason, some code⟩

end SystemError
end ChipEight
