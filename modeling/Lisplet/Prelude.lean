import Lisplet.Text.CodePoint

/-!
# The prelude

Procedures and transformers that are written in the language itself and evaluated when a session
starts, if it asks for them: compositions of `car` and `cdr`, mapping, filtering and folding of lists,
searches in lists, and the two one-armed conditionals.
-/

namespace Lisplet

/-- The source of the prelude. -/
def preludeSource : Text := "
(define (caar x) (car (car x)))
(define (cadr x) (car (cdr x)))
(define (cdar x) (cdr (car x)))
(define (cddr x) (cdr (cdr x)))
(define (caddr x) (car (cdr (cdr x))))

(define (map f . lists)
  (define (any-null? ls)
    (cond ((null? ls) #f)
          ((null? (car ls)) #t)
          (else (any-null? (cdr ls)))))
  (define (map1 g l)
    (let loop ((l l) (acc '()))
      (if (null? l)
          (reverse acc)
          (loop (cdr l) (cons (g (car l)) acc)))))
  (let loop ((ls lists) (acc '()))
    (if (any-null? ls)
        (reverse acc)
        (loop (map1 cdr ls) (cons (apply f (map1 car ls)) acc)))))

(define (for-each f . lists)
  (apply map f lists)
  (if #f #f))

(define (filter pred l)
  (let loop ((l l) (acc '()))
    (cond ((null? l) (reverse acc))
          ((pred (car l)) (loop (cdr l) (cons (car l) acc)))
          (else (loop (cdr l) acc)))))

(define (fold-left f init l)
  (if (null? l)
      init
      (fold-left f (f init (car l)) (cdr l))))

(define (fold-right f init l)
  (let loop ((l (reverse l)) (acc init))
    (if (null? l)
        acc
        (loop (cdr l) (f (car l) acc)))))

(define (assq key alist)
  (cond ((null? alist) #f)
        ((eq? key (caar alist)) (car alist))
        (else (assq key (cdr alist)))))

(define (assoc key alist)
  (cond ((null? alist) #f)
        ((equal? key (caar alist)) (car alist))
        (else (assoc key (cdr alist)))))

(define (member x l)
  (cond ((null? l) #f)
        ((equal? x (car l)) l)
        (else (member x (cdr l)))))

(define-macro (when test . body)
  `(if ,test (begin ,@body)))

(define-macro (unless test . body)
  `(if (not ,test) (begin ,@body)))
"

end Lisplet
